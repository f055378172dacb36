import Mathlib
import TextTemplate.Proofs.Conversion
import TextTemplate.Proofs.Json.Decoder
import TextTemplate.Proofs.Json.Writing

/-! What the json formatter writes for a value without real numbers denotes the plain data of the
value, and a strict decoder gets them back. No two such values have one text. -/

namespace TextTemplate

open Json

section Strings

theorem hexValue_digitChar : ∀ n < 16, hexValue (Nat.digitChar n) = n := by
  decide

theorem codeOf_concat (digits : List Char) (c : Char) :
    codeOf (digits ++ [c]) = 16 * codeOf digits + hexValue c := by
  simp [codeOf]

theorem codeOf_toDigits (n : Nat) : codeOf (Nat.toDigits 16 n) = n := by
  induction n using Nat.strongRecOn with
  | ind n ih =>
    by_cases hsmall : n < 16
    · have hdigit := hexValue_digitChar n hsmall
      rw [Nat.toDigits_of_lt_base hsmall]
      simpa [codeOf] using hdigit
    · have hdigit := hexValue_digitChar (n % 16) (Nat.mod_lt _ (by decide))
      have hrest := ih (n / 16) (by omega)
      rw [Nat.toDigits_of_base_le (by decide) (by omega), codeOf_concat, hdigit, hrest]
      omega

theorem codeOf_zeros (count : Nat) (digits : List Char) :
    codeOf (List.replicate count '0' ++ digits) = codeOf digits := by
  induction count with
  | zero => rfl
  | succ count ih => exact ih

theorem codeOf_hexText (width n : Nat) : codeOf (hexText width n).toList = n := by
  rw [hexText, String.toList_ofList, codeOf_zeros, codeOf_toDigits]

theorem letterDenotes_jsonChar (c : Char) : LetterDenotes (jsonChar c).toList c := by
  unfold jsonChar
  split_ifs with hquote hescape hline hreturn htab hback hfeed hcontrol
  · exact hquote ▸ .short rfl
  · exact hescape ▸ .short rfl
  · exact hline ▸ .short rfl
  · exact hreturn ▸ .short rfl
  · exact htab ▸ .short rfl
  · exact hback ▸ .short rfl
  · exact hfeed ▸ .short rfl
  · have hlength := length_hexText (by decide) (show c.toNat < 16 ^ 4 by omega)
    rw [String.toList_append]
    exact .code (.mk hlength (isHexDigit_hexText 4 c.toNat) (codeOf_hexText 4 c.toNat))
  · rw [Char.toString_eq_singleton, String.toList_singleton]
    exact .plain (Nat.not_lt.mp hcontrol) hquote hescape

theorem lettersDenote_flatten (text : List Char) :
    LettersDenote (text.map (String.toList ∘ jsonChar)).flatten text := by
  induction text with
  | nil => exact .nil
  | cons c text ih => exact .cons (letterDenotes_jsonChar c) ih

theorem stringDenotes_jsonString (text : String) : StringDenotes (jsonString text).toList text := by
  have htext : (jsonString text).toList =
      '"' :: ((text.toList.map (String.toList ∘ jsonChar)).flatten ++ ['"']) := by
    simp [jsonString, String.toList_join, List.flatMap]
  have hdenotes := StringDenotes.mk (lettersDenote_flatten text.toList)
  rwa [String.ofList_toList, ← htext] at hdenotes

end Strings

section Numbers

theorem signedValue_of_isInteger {cs : List Char} (h : IsInteger cs) :
    signedValue cs = Nat.ofDigitChars 10 cs 0 := by
  obtain ⟨-, hall⟩ := h
  unfold signedValue
  split
  · simp at hall
  · rfl

theorem numberOf_toString (n : Int) : numberOf (toString n).toList = .integer n := by
  have hdigits (m : Nat) : (Nat.toDigits 10 m).all (fun c => c == '-' || c.isDigit) = true :=
    List.all_eq_true.mpr fun c hc => by
      simp [List.all_eq_true.mp (isInteger_toDigits m).2 c hc]
  cases n with
  | ofNat m =>
    have htext : (toString (Int.ofNat m)).toList = Nat.toDigits 10 m := Nat.toList_repr
    rw [htext, numberOf, if_pos (hdigits m), signedValue_of_isInteger (isInteger_toDigits m),
      Nat.ofDigitChars_ten_toDigits]
    rfl
  | negSucc m =>
    have htext : (toString (Int.negSucc m)).toList = '-' :: Nat.toDigits 10 (m + 1) := by
      change ("-" ++ Nat.repr (m + 1)).toList = _
      rw [String.toList_append, Nat.toList_repr]
      rfl
    rw [htext, numberOf, if_pos (by simpa using hdigits (m + 1)), signedValue,
      Nat.ofDigitChars_ten_toDigits]
    rfl

theorem denotes_writeInteger {n : Int} {text : String} (h : writeInteger n = .ok text) :
    Denotes text.toList (.integer n) := by
  have hnumber := isNumber_writeInteger h
  unfold writeInteger at h
  split at h
  · cases h
  · obtain rfl := Except.ok.inj h
    exact numberOf_toString n ▸ .number hnumber

end Numbers

section Lists

variable {α : Type} {item : List Char → α → Prop} {texts : List String} {as : List α}

theorem listDenotes_intercalate (h : List.Forall₂ (fun text a => item text.toList a) texts as)
    (hne : texts ≠ []) : ListDenotes item (String.intercalate ", " texts).toList as := by
  induction h with
  | nil => exact absurd rfl hne
  | @cons text a texts as htext h ih =>
    cases h with
    | nil => exact .one htext
    | @cons next _ texts _ _ h =>
      have hrest := ih (List.cons_ne_nil _ _)
      rw [String.toList_intercalate] at hrest ⊢
      rw [List.map_cons, List.map_cons, List.intercalate_cons_cons]
      exact .more htext (isMark_separator ',') hrest

theorem enclosedDenote_intercalate (opener closer : Char)
    (h : List.Forall₂ (fun text a => item text.toList a) texts as) :
    EnclosedDenote opener closer item
      ([opener] ++ (String.intercalate ", " texts).toList ++ [closer]) as := by
  by_cases hne : texts = []
  · subst hne
    obtain rfl := List.forall₂_nil_left_iff.mp h
    exact .empty (isMark_self opener) (isMark_self closer)
  · exact .items (isMark_self opener) (listDenotes_intercalate h hne) (isMark_self closer)

end Lists

namespace Value

mutual

theorem denotes_toJson {v : Value} {text : String} (h : v.toJson = .ok text)
    (hreal : ∀ x, ¬ Within (scalar (.real x)) v) : Denotes text.toList v.toDatum := by
  match v with
  | scalar (.text s) =>
    obtain rfl := Except.ok.inj h
    exact .string (stringDenotes_jsonString s)
  | scalar (.integer n) => exact denotes_writeInteger h
  | scalar (.real x) => exact absurd .self (hreal x)
  | scalar (.truth b) =>
    obtain rfl := Except.ok.inj h
    cases b with
    | false => exact .false
    | true => exact .true
  | sequence items =>
    obtain ⟨texts, htexts, h⟩ := bind_eq_ok.mp h
    obtain rfl := Except.ok.inj h
    have hitems := denotes_itemsToJson htexts fun v hv x hx => hreal x (.item hv hx)
    rw [String.toList_append, String.toList_append]
    exact .array (enclosedDenote_intercalate '[' ']' hitems)
  | record fields =>
    obtain ⟨texts, htexts, h⟩ := bind_eq_ok.mp h
    obtain rfl := Except.ok.inj h
    have hfields := denotes_fieldsToJson htexts fun field hfield x hx =>
      hreal x (.field hfield hx)
    rw [String.toList_append, String.toList_append]
    exact .object (enclosedDenote_intercalate '\x7b' '\x7d' hfields)
  | absent =>
    obtain rfl := Except.ok.inj h
    exact .null

theorem denotes_itemsToJson {items : List Value} {texts : List String}
    (h : itemsToJson items = .ok texts)
    (hreal : ∀ v ∈ items, ∀ x, ¬ Within (scalar (.real x)) v) :
    List.Forall₂ (fun text d => Denotes text.toList d) texts (itemsToDatum items) := by
  match items with
  | [] =>
    obtain rfl := Except.ok.inj h
    exact .nil
  | v :: items =>
    obtain ⟨hv, hitems⟩ := List.forall_mem_cons.mp hreal
    obtain ⟨first, hfirst, h⟩ := bind_eq_ok.mp h
    obtain ⟨others, hothers, h⟩ := bind_eq_ok.mp h
    obtain rfl := Except.ok.inj h
    exact .cons (denotes_toJson hfirst hv) (denotes_itemsToJson hothers hitems)

theorem denotes_fieldsToJson {fields : List (String × Value)} {texts : List String}
    (h : fieldsToJson fields = .ok texts)
    (hreal : ∀ field ∈ fields, ∀ x, ¬ Within (scalar (.real x)) field.2) :
    List.Forall₂ (fun text entry => MemberDenotes Denotes text.toList entry) texts
      (fieldsToDatum fields) := by
  match fields with
  | [] =>
    obtain rfl := Except.ok.inj h
    exact .nil
  | (name, v) :: fields =>
    obtain ⟨hv, hfields⟩ := List.forall_mem_cons.mp hreal
    obtain ⟨first, hfirst, h⟩ := bind_eq_ok.mp h
    obtain ⟨others, hothers, h⟩ := bind_eq_ok.mp h
    obtain rfl := Except.ok.inj h
    refine .cons ?_ (denotes_fieldsToJson hothers hfields)
    rw [String.toList_append, String.toList_append]
    exact .mk (stringDenotes_jsonString name) (isMark_separator ':') (denotes_toJson hfirst hv)

end

theorem decode?_of_toJson {v : Value} {text : String} (h : v.toJson = .ok text)
    (hreal : ∀ x, ¬ Within (scalar (.real x)) v) : decode? text.toList = some v.toDatum := by
  have hblank : IsBlank [] := List.forall_mem_nil _
  have hdenotes := TextDenotes.mk hblank (denotes_toJson h hreal) hblank
  rw [List.nil_append, List.append_nil] at hdenotes
  exact decode?_eq_some_iff.mpr hdenotes

mutual

/-- A value is determined by its plain data. -/
theorem eq_of_toDatum_eq {v w : Value} (h : v.toDatum = w.toDatum) : v = w := by
  match v, w with
  | scalar a, scalar b =>
    cases a <;> cases b <;> cases h <;> rfl
  | sequence xs, sequence ys =>
    exact congrArg sequence (eq_of_itemsToDatum_eq (Datum.list.inj h))
  | record fields, record others =>
    exact congrArg record (eq_of_fieldsToDatum_eq (Datum.map.inj h))
  | absent, absent => rfl
  | scalar a, sequence _ | scalar a, record _ | scalar a, absent => cases a <;> cases h
  | sequence _, scalar a | record _, scalar a | absent, scalar a => cases a <;> cases h
  | sequence _, record _ | sequence _, absent | record _, sequence _ | record _, absent
  | absent, sequence _ | absent, record _ => cases h

theorem eq_of_itemsToDatum_eq {xs ys : List Value} (h : itemsToDatum xs = itemsToDatum ys) :
    xs = ys := by
  match xs, ys with
  | [], [] => rfl
  | [], _ :: _ | _ :: _, [] => cases h
  | x :: xs, y :: ys =>
    obtain ⟨hfirst, hothers⟩ := List.cons.inj h
    rw [eq_of_toDatum_eq hfirst, eq_of_itemsToDatum_eq hothers]

theorem eq_of_fieldsToDatum_eq {fields others : List (String × Value)}
    (h : fieldsToDatum fields = fieldsToDatum others) : fields = others := by
  match fields, others with
  | [], [] => rfl
  | [], _ :: _ | _ :: _, [] => cases h
  | (name, v) :: fields, (name', w) :: others =>
    obtain ⟨hfirst, hothers⟩ := List.cons.inj h
    obtain ⟨hname, hv⟩ := Prod.mk.inj hfirst
    rw [Datum.text.inj hname, eq_of_toDatum_eq hv, eq_of_fieldsToDatum_eq hothers]

end

theorem itemsToDatum_eq_map (items : List Value) : itemsToDatum items = items.map toDatum := by
  induction items with
  | nil => rfl
  | cons v items ih => rw [itemsToDatum, ih, List.map_cons]

theorem fieldsToDatum_eq_map (fields : List (String × Value)) :
    fieldsToDatum fields = fields.map fun field => (.text field.1, field.2.toDatum) := by
  induction fields with
  | nil => rfl
  | cons field fields ih => rw [fieldsToDatum, ih, List.map_cons]

theorem exists_of_toDatum_eq_list {v : Value} {items : List Datum} (h : v.toDatum = .list items) :
    ∃ values, v = sequence values ∧ itemsToDatum values = items := by
  cases v with
  | scalar a => cases a <;> cases h
  | sequence values => exact ⟨values, rfl, Datum.list.inj h⟩
  | record | absent => cases h

theorem exists_of_toDatum_eq_map {v : Value} {entries : List (Datum × Datum)}
    (h : v.toDatum = .map entries) :
    ∃ fields, v = record fields ∧ fieldsToDatum fields = entries := by
  cases v with
  | scalar a => cases a <;> cases h
  | record fields => exact ⟨fields, rfl, Datum.map.inj h⟩
  | sequence | absent => cases h

theorem toDatum_ne_tuple (v : Value) (items : List Datum) : v.toDatum ≠ .tuple items := by
  intro h
  cases v with
  | scalar a => cases a <;> cases h
  | sequence | record | absent => cases h

/-- Every map in the plain data comes from a record in the value. -/
theorem exists_record_of_within {v : Value} {d : Datum} {entries : List (Datum × Datum)}
    (h : Datum.Within (.map entries) d) (hv : v.toDatum = d) :
    ∃ fields, Within (record fields) v ∧ fieldsToDatum fields = entries := by
  induction h generalizing v with
  | self =>
    obtain ⟨fields, rfl, hfields⟩ := exists_of_toDatum_eq_map hv
    exact ⟨fields, .self, hfields⟩
  | listItem hmem _ ih =>
    obtain ⟨values, rfl, rfl⟩ := exists_of_toDatum_eq_list hv
    rw [itemsToDatum_eq_map] at hmem
    obtain ⟨w, hw, hd⟩ := List.mem_map.mp hmem
    obtain ⟨fields, hwithin, hfields⟩ := ih hd
    exact ⟨fields, .item hw hwithin, hfields⟩
  | tupleItem => exact absurd hv (toDatum_ne_tuple v _)
  | item hmem _ ih =>
    obtain ⟨members, rfl, rfl⟩ := exists_of_toDatum_eq_map hv
    rw [fieldsToDatum_eq_map] at hmem
    obtain ⟨field, hfield, rfl⟩ := List.mem_map.mp hmem
    obtain ⟨fields, hwithin, hfields⟩ := ih rfl
    exact ⟨fields, .field hfield hwithin, hfields⟩

theorem hasDistinctKeys_toDatum {v : Value} (h : v.HasDistinctNames) :
    v.toDatum.HasDistinctKeys := by
  intro entries hentries
  obtain ⟨fields, hwithin, rfl⟩ := exists_record_of_within hentries rfl
  rw [Datum.keys_fieldsToDatum]
  exact (h fields hwithin).map fun _ _ => Datum.text.inj

/-- For a value without real numbers and without long integers, the json formatter writes a text
that a strict decoder turns into the plain data of the value: the fields of a record in their order,
and no object with two members of one name. No other value without real numbers has that text. -/
theorem decode?_json {v : WellNamed} (hlong : ¬ v.value.HoldsLong)
    (hreal : ∀ x, ¬ Within (scalar (.real x)) v.value) :
    ∃ text, Builtin.json.textOf v.value [] = .ok text ∧
      decode? text.toList = some v.value.toDatum ∧
      (∀ cs d, decode? cs = some d → IsText cs) ∧
      v.value.toDatum.HasDistinctKeys ∧
      ∀ w : Value, (∀ x, ¬ Within (scalar (.real x)) w) →
        Builtin.json.textOf w [] = .ok text → w = v.value := by
  cases htext : v.value.toJson with
  | error fault => exact absurd ((failsBy_toJson v.value).mp ⟨fault, htext, trivial⟩) hlong
  | ok text =>
    have hdecode := decode?_of_toJson htext hreal
    refine ⟨text, ?_, hdecode, ?_, hasDistinctKeys_toDatum v.hasDistinctNames, ?_⟩
    · rw [Builtin.textOf, htext]
      rfl
    · intro cs d h
      exact (decode?_eq_some_iff.mp h).isText
    · intro w hw h
      cases hother : w.toJson with
      | error fault =>
        rw [Builtin.textOf, hother] at h
        cases h
      | ok text' =>
        rw [Builtin.textOf, hother] at h
        obtain rfl := Except.ok.inj h
        have hsame := decode?_of_toJson hother hw
        rw [hdecode] at hsame
        exact eq_of_toDatum_eq (Option.some.inj hsame).symm

/-- Truth values are no numbers, and what is empty stays what it is. -/
def mixed : WellNamed where
  value := record [("é\"", sequence [scalar (.truth true), integer (-70), absent]),
    ("\x01", record [])]
  hasDistinctNames := by simp [HasDistinctNames, NameMap.names, integer]

theorem decode?_json_mixed :
    ¬ mixed.value.HoldsLong ∧ (∀ x, ¬ Within (scalar (.real x)) mixed.value) ∧
    ∃ text, Builtin.json.textOf mixed.value [] = .ok text ∧
      decode? text.toList = some (.map [
        (.text "é\"", .list [.truth true, .integer (-70), .null]), (.text "\x01", .map [])]) := by
  have hshort : ¬ TextTemplate.IsLong (-70) := isLong_iff.not.mpr (by decide)
  have hlong : ¬ mixed.value.HoldsLong := by
    simp [mixed, holdsLong_record, holdsLong_sequence, holdsLong_scalar, not_holdsLong_absent,
      IsLong, integer, hshort]
  have hreal : ∀ x, ¬ Within (scalar (.real x)) mixed.value := by
    simp [mixed, integer]
  obtain ⟨text, htext, hdecode, -⟩ := decode?_json hlong hreal
  exact ⟨hlong, hreal, text, htext, hdecode⟩

end Value

end TextTemplate
