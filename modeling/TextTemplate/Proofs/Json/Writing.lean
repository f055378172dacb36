import Mathlib
import TextTemplate.Formatter.Builtin
import TextTemplate.Proofs.Parts
import TextTemplate.Proofs.Json.Number
import TextTemplate.Proofs.LongNumber

/-! What the json formatter writes. It is a JSON text unless a real number in the value is no finite
number, and only then. -/

namespace TextTemplate

open Json

section Strings

theorem isHexDigit_digitChar : ∀ n < 16, IsHexDigit (Nat.digitChar n) := by
  decide

theorem isHexDigit_toDigits (n : Nat) : ∀ c ∈ Nat.toDigits 16 n, IsHexDigit c := by
  induction n using Nat.strongRecOn with
  | ind n ih =>
    intro c hc
    by_cases hsmall : n < 16
    · rw [Nat.toDigits_of_lt_base hsmall] at hc
      obtain rfl := List.mem_singleton.mp hc
      exact isHexDigit_digitChar n hsmall
    · rw [Nat.toDigits_of_base_le (by decide) (by omega)] at hc
      obtain hmore | hlast := List.mem_append.mp hc
      · exact ih (n / 16) (by omega) c hmore
      · obtain rfl := List.mem_singleton.mp hlast
        exact isHexDigit_digitChar (n % 16) (Nat.mod_lt _ (by decide))

theorem isHexDigit_hexText (width n : Nat) : ∀ c ∈ (hexText width n).toList, IsHexDigit c := by
  intro c hc
  rw [hexText, String.toList_ofList] at hc
  obtain hzero | hdigit := List.mem_append.mp hc
  · obtain rfl := List.eq_of_mem_replicate hzero
    decide
  · exact isHexDigit_toDigits n c hdigit

theorem length_hexText {width n : Nat} (hwidth : 0 < width) (hn : n < 16 ^ width) :
    (hexText width n).toList.length = width := by
  have hlength := (Nat.length_toDigits_le_iff (by decide) hwidth).mpr hn
  rw [hexText, String.toList_ofList, List.length_append, List.length_replicate]
  omega

theorem isLetter_jsonChar (c : Char) : IsLetter (jsonChar c).toList := by
  unfold jsonChar
  split_ifs with hquote hescape hline hreturn htab hback hfeed hcontrol
  · exact .short (by decide)
  · exact .short (by decide)
  · exact .short (by decide)
  · exact .short (by decide)
  · exact .short (by decide)
  · exact .short (by decide)
  · exact .short (by decide)
  · have hlength := length_hexText (by decide) (show c.toNat < 16 ^ 4 by omega)
    rw [String.toList_append]
    exact .code hlength (isHexDigit_hexText 4 c.toNat)
  · rw [Char.toString_eq_singleton, String.toList_singleton]
    exact .plain (Nat.not_lt.mp hcontrol) hquote hescape

theorem isString_jsonString (text : String) : IsString (jsonString text).toList := by
  have htext : (jsonString text).toList =
      '"' :: ((text.toList.map (String.toList ∘ jsonChar)).flatten ++ ['"']) := by
    simp [jsonString, String.toList_join, List.flatMap]
  rw [htext]
  refine .mk fun letter hletter => ?_
  obtain ⟨c, -, rfl⟩ := List.mem_map.mp hletter
  exact isLetter_jsonChar c

end Strings

theorem isMark_self (c : Char) : IsMark c [c] :=
  .mk (List.forall_mem_nil _) (List.forall_mem_nil _)

theorem isMark_separator (c : Char) : IsMark c [c, ' '] := by
  have hbehind : IsBlank [' '] := by simp [IsBlank]
  exact .mk (List.forall_mem_nil _) hbehind

theorem derives_intercalate {item : Phrase} {texts : List String} (hne : texts ≠ [])
    (h : ∀ text ∈ texts, Derives item text.toList) :
    Derives (.list item) (String.intercalate ", " texts).toList := by
  induction texts with
  | nil => exact absurd rfl hne
  | cons text texts ih =>
    obtain ⟨htext, htexts⟩ := List.forall_mem_cons.mp h
    cases texts with
    | nil => exact .one htext
    | cons next texts =>
      have hrest := ih (List.cons_ne_nil _ _) htexts
      rw [String.toList_intercalate] at hrest ⊢
      rw [List.map_cons, List.map_cons, List.intercalate_cons_cons]
      exact .more htext (isMark_separator ',') hrest

namespace Json

/-- The string literals of the text are closed, and a foreign letter stands outside of them if the
condition holds. -/
def Shows (condition : Prop) (cs : List Char) : Prop :=
  ∃ ds, Bares cs ds ∧ (condition → ∃ c ∈ ds, isForeign c = true)

section Shows

variable {P Q : Prop} {cs cs' : List Char}

theorem IsPure.shows (h : IsPure cs) : Shows False cs := by
  obtain ⟨ds, hbare, -⟩ := h
  exact ⟨ds, hbare, False.elim⟩

theorem Shows.imp (h : Shows P cs) (hcondition : Q → P) : Shows Q cs := by
  obtain ⟨ds, hbare, hforeign⟩ := h
  exact ⟨ds, hbare, fun hQ => hforeign (hcondition hQ)⟩

theorem Shows.append (h : Shows P cs) (h' : Shows Q cs') : Shows (P ∨ Q) (cs ++ cs') := by
  obtain ⟨ds, hbare, hforeign⟩ := h
  obtain ⟨ds', hbare', hforeign'⟩ := h'
  refine ⟨ds ++ ds', hbare.append hbare', ?_⟩
  rintro (hP | hQ)
  · obtain ⟨c, hc, hletter⟩ := hforeign hP
    exact ⟨c, List.mem_append_left _ hc, hletter⟩
  · obtain ⟨c, hc, hletter⟩ := hforeign' hQ
    exact ⟨c, List.mem_append_right _ hc, hletter⟩

theorem Shows.not_isPure (h : Shows P cs) (hP : P) : ¬ IsPure cs := by
  rintro ⟨ds', hbare', hpure⟩
  obtain ⟨ds, hbare, hforeign⟩ := h
  obtain ⟨c, hc, hletter⟩ := hforeign hP
  rw [← hbare.eq_bare, hbare'.eq_bare] at hc
  rw [hpure c hc] at hletter
  cases hletter

theorem Shows.enclosed (h : Shows P cs) {opener closer : List Char}
    (hopener : opener.all isInert = true) (hcloser : closer.all isInert = true) :
    Shows P (opener ++ cs ++ closer) := by
  have hall := ((isPure_of_all hopener).shows.append h).append (isPure_of_all hcloser).shows
  exact hall.imp fun hP => .inl (.inr hP)

theorem Shows.intercalate {first : String} {others : List String} (h : Shows P first.toList)
    (h' : Shows Q (String.intercalate ", " others).toList) :
    Shows (P ∨ Q) (String.intercalate ", " (first :: others)).toList := by
  rw [String.toList_intercalate] at h' ⊢
  cases others with
  | nil =>
    have happend := h.append h'
    simpa using happend
  | cons next others =>
    have hseparator : Shows False ", ".toList := (isPure_of_all rfl).shows
    have happend := (h.append hseparator).append h'
    rw [List.map_cons, List.map_cons, List.intercalate_cons_cons]
    exact happend.imp fun hPQ => hPQ.imp_left .inl

theorem shows_write (x : Float) :
    Shows (x.isFinite = false) (RealLayout.json.write x).toList := by
  cases hfinite : x.isFinite with
  | true => exact (isPure_number (RealLayout.isNumber_write hfinite)).shows.imp (by simp)
  | false =>
    have hnone : BinaryParts.ofReal? x = none := by
      rw [← Option.not_isSome_iff_eq_none, BinaryParts.isSome_ofReal?, hfinite]
      decide
    have hletter {text : String} (hquote : '"' ∉ text.toList)
        (h : ∃ c ∈ text.toList, isForeign c = true) :
        Shows (false = false) text.toList := ⟨text.toList, bares_of_not_mem hquote, fun _ => h⟩
    rw [RealLayout.write, hnone]
    split_ifs with hnan hnegative
    · exact hletter (by decide) ⟨'N', by decide, rfl⟩
    · exact hletter (by decide) ⟨'I', by decide, rfl⟩
    · exact hletter (by decide) ⟨'I', by decide, rfl⟩

end Shows

end Json

namespace Value

mutual

/-- Where every real number is finite, the text is derived as a value. -/
theorem derives_toJson {v : Value} {text : String} (h : v.toJson = .ok text)
    (hfinite : ∀ x, Within (scalar (.real x)) v → x.isFinite = true) :
    Derives .value text.toList := by
  match v with
  | scalar (.text s) =>
    obtain rfl := Except.ok.inj h
    exact .string (isString_jsonString s)
  | scalar (.integer n) => exact .number (isNumber_writeInteger h)
  | scalar (.real x) =>
    obtain rfl := Except.ok.inj h
    exact .number (RealLayout.isNumber_write (hfinite x .self))
  | scalar (.truth b) =>
    obtain rfl := Except.ok.inj h
    cases b with
    | false => exact .false
    | true => exact .true
  | sequence items =>
    obtain ⟨texts, htexts, h⟩ := bind_eq_ok.mp h
    obtain rfl := Except.ok.inj h
    have hitems := derives_itemsToJson htexts fun v hv x hx => hfinite x (.item hv hx)
    rw [String.toList_append, String.toList_append]
    by_cases hne : texts = []
    · subst hne
      exact .emptyArray (isMark_self '[') (isMark_self ']')
    · have hlist := derives_intercalate hne hitems
      exact .array (isMark_self '[') hlist (isMark_self ']')
  | record fields =>
    obtain ⟨texts, htexts, h⟩ := bind_eq_ok.mp h
    obtain rfl := Except.ok.inj h
    have hfields := derives_fieldsToJson htexts fun field hfield x hx =>
      hfinite x (.field hfield hx)
    rw [String.toList_append, String.toList_append]
    by_cases hne : texts = []
    · subst hne
      exact .emptyObject (isMark_self '\x7b') (isMark_self '\x7d')
    · have hlist := derives_intercalate hne hfields
      exact .object (isMark_self '\x7b') hlist (isMark_self '\x7d')
  | absent =>
    obtain rfl := Except.ok.inj h
    exact .null

theorem derives_itemsToJson {items : List Value} {texts : List String}
    (h : itemsToJson items = .ok texts)
    (hfinite : ∀ v ∈ items, ∀ x, Within (scalar (.real x)) v → x.isFinite = true) :
    ∀ text ∈ texts, Derives .value text.toList := by
  match items with
  | [] =>
    obtain rfl := Except.ok.inj h
    exact List.forall_mem_nil _
  | v :: items =>
    obtain ⟨hv, hitems⟩ := List.forall_mem_cons.mp hfinite
    obtain ⟨first, hfirst, h⟩ := bind_eq_ok.mp h
    obtain ⟨others, hothers, h⟩ := bind_eq_ok.mp h
    obtain rfl := Except.ok.inj h
    exact List.forall_mem_cons.mpr
      ⟨derives_toJson hfirst hv, derives_itemsToJson hothers hitems⟩

theorem derives_fieldsToJson {fields : List (String × Value)} {texts : List String}
    (h : fieldsToJson fields = .ok texts)
    (hfinite : ∀ field ∈ fields, ∀ x, Within (scalar (.real x)) field.2 → x.isFinite = true) :
    ∀ text ∈ texts, Derives .member text.toList := by
  match fields with
  | [] =>
    obtain rfl := Except.ok.inj h
    exact List.forall_mem_nil _
  | (name, v) :: fields =>
    obtain ⟨hv, hfields⟩ := List.forall_mem_cons.mp hfinite
    obtain ⟨first, hfirst, h⟩ := bind_eq_ok.mp h
    obtain ⟨others, hothers, h⟩ := bind_eq_ok.mp h
    obtain rfl := Except.ok.inj h
    refine List.forall_mem_cons.mpr ⟨?_, derives_fieldsToJson hothers hfields⟩
    rw [String.toList_append, String.toList_append]
    exact .member (isString_jsonString name) (isMark_separator ':') (derives_toJson hfirst hv)

end

/-- A real number that is no finite one stands somewhere in the value. -/
def HoldsNonFinite (v : Value) : Prop :=
  ∃ x, Within (scalar (.real x)) v ∧ x.isFinite = false

theorem holdsNonFinite_sequence {items : List Value} (h : HoldsNonFinite (sequence items)) :
    ∃ v ∈ items, v.HoldsNonFinite := by
  obtain ⟨x, hwithin, hx⟩ := h
  obtain heq | ⟨v, hv, hwithin⟩ := within_sequence.mp hwithin
  · cases heq
  · exact ⟨v, hv, x, hwithin, hx⟩

theorem holdsNonFinite_record {fields : List (String × Value)}
    (h : HoldsNonFinite (record fields)) : ∃ field ∈ fields, field.2.HoldsNonFinite := by
  obtain ⟨x, hwithin, hx⟩ := h
  obtain heq | ⟨field, hfield, hwithin⟩ := within_record.mp hwithin
  · cases heq
  · exact ⟨field, hfield, x, hwithin, hx⟩

theorem not_holdsNonFinite_scalar {a : Scalar} (ha : ∀ x, a ≠ .real x) :
    ¬ HoldsNonFinite (scalar a) := by
  rintro ⟨x, hwithin, -⟩
  obtain heq := within_scalar.mp hwithin
  exact ha x (scalar.inj heq).symm

theorem not_holdsNonFinite_absent : ¬ HoldsNonFinite absent := by
  rintro ⟨x, hwithin, -⟩
  cases within_absent.mp hwithin

mutual

/-- Every number that is not finite shows in the text. -/
theorem shows_toJson {v : Value} {text : String} (h : v.toJson = .ok text) :
    Shows v.HoldsNonFinite text.toList := by
  match v with
  | scalar (.text s) =>
    obtain rfl := Except.ok.inj h
    refine (isPure_string (isString_jsonString s)).shows.imp ?_
    exact not_holdsNonFinite_scalar (by simp)
  | scalar (.integer n) =>
    refine (isPure_number (isNumber_writeInteger h)).shows.imp ?_
    exact not_holdsNonFinite_scalar (by simp)
  | scalar (.real x) =>
    obtain rfl := Except.ok.inj h
    refine (shows_write x).imp ?_
    rintro ⟨y, hwithin, hy⟩
    cases within_scalar.mp hwithin
    exact hy
  | scalar (.truth b) =>
    obtain rfl := Except.ok.inj h
    refine IsPure.shows ?_ |>.imp (not_holdsNonFinite_scalar (by simp))
    cases b with
    | false => exact isPure_of_all rfl
    | true => exact isPure_of_all rfl
  | sequence items =>
    obtain ⟨texts, htexts, h⟩ := bind_eq_ok.mp h
    obtain rfl := Except.ok.inj h
    rw [String.toList_append, String.toList_append]
    exact (shows_itemsToJson htexts).enclosed (by rfl) (by rfl) |>.imp holdsNonFinite_sequence
  | record fields =>
    obtain ⟨texts, htexts, h⟩ := bind_eq_ok.mp h
    obtain rfl := Except.ok.inj h
    rw [String.toList_append, String.toList_append]
    exact (shows_fieldsToJson htexts).enclosed (by rfl) (by rfl) |>.imp holdsNonFinite_record
  | absent =>
    obtain rfl := Except.ok.inj h
    exact (isPure_of_all rfl).shows.imp not_holdsNonFinite_absent

theorem shows_itemsToJson {items : List Value} {texts : List String}
    (h : itemsToJson items = .ok texts) :
    Shows (∃ v ∈ items, v.HoldsNonFinite) (String.intercalate ", " texts).toList := by
  match items with
  | [] =>
    obtain rfl := Except.ok.inj h
    exact (isPure_of_all rfl).shows.imp (by simp)
  | v :: items =>
    obtain ⟨first, hfirst, h⟩ := bind_eq_ok.mp h
    obtain ⟨others, hothers, h⟩ := bind_eq_ok.mp h
    obtain rfl := Except.ok.inj h
    exact (shows_toJson hfirst).intercalate (shows_itemsToJson hothers) |>.imp (by simp)

theorem shows_fieldsToJson {fields : List (String × Value)} {texts : List String}
    (h : fieldsToJson fields = .ok texts) :
    Shows (∃ field ∈ fields, field.2.HoldsNonFinite) (String.intercalate ", " texts).toList := by
  match fields with
  | [] =>
    obtain rfl := Except.ok.inj h
    exact (isPure_of_all rfl).shows.imp (by simp)
  | (name, v) :: fields =>
    obtain ⟨first, hfirst, h⟩ := bind_eq_ok.mp h
    obtain ⟨others, hothers, h⟩ := bind_eq_ok.mp h
    obtain rfl := Except.ok.inj h
    have hname : Shows False (jsonString name ++ ": ").toList := by
      rw [String.toList_append]
      exact ((isPure_string (isString_jsonString name)).append (isPure_of_all rfl)).shows
    have hmember : Shows (False ∨ v.HoldsNonFinite) (jsonString name ++ ": " ++ first).toList := by
      rw [String.toList_append]
      exact hname.append (shows_toJson hfirst)
    exact hmember.intercalate (shows_fieldsToJson hothers) |>.imp (by simp)

end

/-- What the json formatter writes for a value without a long integer is a JSON text exactly if all
real numbers in the value are finite. -/
theorem isText_json_iff {v : Value} (hv : ¬ v.HoldsLong) :
    ∃ text, Builtin.json.textOf v [] = .ok text ∧
      (IsText text.toList ↔ ∀ x, Within (scalar (.real x)) v → x.isFinite = true) := by
  cases htext : v.toJson with
  | error fault => exact absurd ((failsBy_toJson v).mp ⟨fault, htext, trivial⟩) hv
  | ok text =>
    refine ⟨text, ?_, ?_, ?_⟩
    · rw [Builtin.textOf, htext]
      rfl
    · intro h x hx
      by_contra hnot
      have hnonFinite : v.HoldsNonFinite := ⟨x, hx, Bool.eq_false_iff.mpr hnot⟩
      exact (shows_toJson htext).not_isPure hnonFinite h.isPure
    · intro hfinite
      have hderives := derives_toJson htext hfinite
      have hblank : IsBlank [] := List.forall_mem_nil _
      simpa using IsText.mk hblank hderives hblank

/-- What is no number makes a text that is not JSON. -/
theorem isText_json_iff_notANumber : ¬ (sequence [scalar (.real (0 / 0))]).HoldsLong ∧
    ∃ text, Builtin.json.textOf (sequence [scalar (.real (0 / 0))]) [] = .ok text ∧
      ¬ IsText text.toList := by
  have hlong : ¬ (sequence [scalar (.real (0 / 0))]).HoldsLong := by
    simp [holdsLong_sequence, holdsLong_scalar, IsLong, integer]
  obtain ⟨text, htext, hiff⟩ := isText_json_iff hlong
  refine ⟨hlong, text, htext, fun h => ?_⟩
  have hfinite := hiff.mp h (0 / 0) (.item List.mem_cons_self .self)
  revert hfinite
  decide

end Value

end TextTemplate
