import Mathlib
import TextTemplate.Proofs.Documented
import TextTemplate.Proofs.Parts

/-! Plain data into values and back. Nothing is lost either way, except that entries of a map
share a field where their keys have one text; and only data of a type that no value stands for are
refused. -/

namespace TextTemplate

namespace NameMap

variable {α : Type} {named : List (String × α)} {m : NameMap α} {name : String} {x : α}

/-- Every name is there once, in its first place and with its last value. -/
structure IsMerged (named : List (String × α)) (m : NameMap α) : Prop where
  names_eq : m.names = (names named).eraseDups
  get?_eq (name : String) : m.get? name = NameMap.get? named.reverse name

theorem put_of_not_mem (h : name ∉ m.names) : m.put name x = m ++ [(name, x)] := by
  induction m with
  | nil => rfl
  | cons entry rest ih =>
    obtain ⟨key, y⟩ := entry
    have hkey : key ≠ name := fun hkey => h (List.mem_cons.mpr (.inl hkey.symm))
    have hrest : name ∉ names rest := fun hmem => h (List.mem_cons_of_mem _ hmem)
    rw [put, if_neg hkey, ih hrest, List.cons_append]

theorem names_put_of_mem (h : name ∈ m.names) : (m.put name x).names = m.names := by
  induction m with
  | nil => cases h
  | cons entry rest ih =>
    obtain ⟨key, y⟩ := entry
    rw [put]
    by_cases hkey : key = name
    · subst hkey
      simp [names]
    · have hrest : name ∈ names rest := (List.mem_cons.mp h).resolve_left (Ne.symm hkey)
      have hput := ih hrest
      rw [if_neg hkey]
      exact congrArg (key :: ·) hput

theorem names_concat : names (named ++ [(name, x)]) = names named ++ [name] := by
  simp [names]

theorem ofList_concat : ofList (named ++ [(name, x)]) = (ofList named).put name x := by
  rw [ofList, List.foldl_append]
  rfl

theorem isMerged_ofList (named : List (String × α)) : IsMerged named (ofList named) := by
  induction named using List.reverseRecOn with
  | nil => exact ⟨rfl, fun _ => rfl⟩
  | append_singleton named entry ih =>
    obtain ⟨key, y⟩ := entry
    rw [ofList_concat]
    refine ⟨?_, ?_⟩
    · rw [names_concat, List.eraseDups_append]
      by_cases hkey : key ∈ names named
      · have hmem : key ∈ (ofList named).names := by
          rw [ih.names_eq]
          exact List.mem_eraseDups.mpr hkey
        rw [names_put_of_mem hmem, ih.names_eq]
        simp [List.removeAll, hkey]
      · have hmem : key ∉ (ofList named).names := by
          rw [ih.names_eq]
          exact fun h => hkey (List.mem_eraseDups.mp h)
        rw [put_of_not_mem hmem, names_concat, ih.names_eq]
        simp [List.removeAll, hkey, List.eraseDups_cons]
    · intro name
      rw [get?_put, List.reverse_append, ih.get?_eq]
      by_cases hname : name = key
      · subst hname
        simp [get?]
      · simp [get?, hname, Ne.symm hname]

theorem ofList_of_nodup (h : (names named).Nodup) : ofList named = named := by
  induction named using List.reverseRecOn with
  | nil => rfl
  | append_singleton named entry ih =>
    obtain ⟨name, x⟩ := entry
    rw [names_concat, List.nodup_append] at h
    obtain ⟨hnamed, -, hdisjoint⟩ := h
    have hname : name ∉ names named := fun hmem => hdisjoint name hmem name List.mem_cons_self rfl
    rw [ofList_concat, ih hnamed, put_of_not_mem hname]

theorem nodup_names_ofList (named : List (String × α)) : (ofList named).names.Nodup := by
  induction named using List.reverseRecOn with
  | nil => exact List.nodup_nil
  | append_singleton named entry ih =>
    rw [ofList_concat]
    exact nodup_names_put ih entry.1 entry.2

theorem mem_of_mem_ofList {entry : String × α} (h : entry ∈ ofList named) : entry ∈ named := by
  have hget := get?_of_mem (nodup_names_ofList named) h
  rw [(isMerged_ofList named).get?_eq] at hget
  exact List.mem_reverse.mp (mem_of_get? hget)

end NameMap

section Pointwise

variable {α β : Type} {R : α → β → Prop} {as : List α} {bs : List β} {a : α}

theorem exists_right_of_mem (h : List.Forall₂ R as bs) (ha : a ∈ as) : ∃ b ∈ bs, R a b := by
  induction h with
  | nil => cases ha
  | @cons a' b as bs hab _ ih =>
    obtain rfl | hmem := List.mem_cons.mp ha
    · exact ⟨b, List.mem_cons_self, hab⟩
    · obtain ⟨b', hb', hab'⟩ := ih hmem
      exact ⟨b', List.mem_cons_of_mem _ hb', hab'⟩

theorem exists_forall₂ (h : ∀ a ∈ as, ∃ b, R a b) : ∃ bs, List.Forall₂ R as bs := by
  induction as with
  | nil => exact ⟨[], .nil⟩
  | cons a as ih =>
    obtain ⟨⟨b, hb⟩, hrest⟩ := List.forall_mem_cons.mp h
    obtain ⟨bs, hbs⟩ := ih hrest
    exact ⟨b :: bs, .cons hb hbs⟩

end Pointwise

namespace Datum

/-- The first datum is the second one or stands somewhere in it as an item, at any depth. -/
inductive Within (part : Datum) : Datum → Prop
  | self : Within part part
  | listItem {d : Datum} {items : List Datum} (hmem : d ∈ items) (h : Within part d) :
      Within part (.list items)
  | tupleItem {d : Datum} {items : List Datum} (hmem : d ∈ items) (h : Within part d) :
      Within part (.tuple items)
  | item {entry : Datum × Datum} {entries : List (Datum × Datum)} (hmem : entry ∈ entries)
      (h : Within part entry.2) : Within part (.map entries)

/-- Data of a type that no value stands for. -/
inductive IsUnsupported : String → Datum → Prop
  | date {year month day : Nat} : IsUnsupported "date" (.date year month day)
  | foreign {thing : Foreign} : IsUnsupported thing.typeName (.foreign thing)

inductive IsPlainKey : Datum → Prop
  | null : IsPlainKey .null
  | truth {b : Bool} : IsPlainKey (.truth b)
  | integer {n : Int} (h : ¬ IsLong n) : IsPlainKey (.integer n)
  | real {x : Float} : IsPlainKey (.real x)
  | text {s : String} : IsPlainKey (.text s)

def HasPlainKeys (d : Datum) : Prop :=
  ∀ entries, Within (.map entries) d → ∀ entry ∈ entries, IsPlainKey entry.1

def HasDistinctKeys (d : Datum) : Prop :=
  ∀ entries, Within (.map entries) d → (entries.map Prod.fst).Nodup

/-- What an entry of a map adds to a record. -/
def Becomes (entry : Datum × Datum) (field : String × Value) : Prop :=
  entry.1.plainText = .ok field.1 ∧ entry.2.toValue = .ok field.2

section Inversion

variable {items : List Datum} {values : List Value} {entries : List (Datum × Datum)}
  {fields : List (String × Value)} {v : Value}

theorem toValues_eq_ok_iff : toValues items = .ok values ↔
    List.Forall₂ (fun d v => d.toValue = .ok v) items values := by
  induction items generalizing values with
  | nil =>
    rw [List.forall₂_nil_left_iff, toValues, Except.ok.injEq]
    exact eq_comm
  | cons d items ih =>
    rw [List.forall₂_cons_left_iff, toValues, bind_eq_ok]
    constructor
    · rintro ⟨v, hv, h⟩
      obtain ⟨vs, hvs, h⟩ := bind_eq_ok.mp h
      exact ⟨v, vs, hv, ih.mp hvs, (Except.ok.inj h).symm⟩
    · rintro ⟨v, vs, hv, hvs, rfl⟩
      exact ⟨v, hv, bind_eq_ok.mpr ⟨vs, ih.mpr hvs, rfl⟩⟩

theorem toFields_eq_ok_iff {done : NameMap Value} : toFields done entries = .ok fields ↔
    ∃ named, List.Forall₂ Becomes entries named ∧
      fields = named.foldl (fun m field => m.put field.1 field.2) done := by
  induction entries generalizing done with
  | nil =>
    simp only [List.forall₂_nil_left_iff, exists_eq_left, toFields, Except.ok.injEq]
    exact eq_comm
  | cons entry entries ih =>
    obtain ⟨key, item⟩ := entry
    simp only [List.forall₂_cons_left_iff, toFields, bind_eq_ok]
    constructor
    · rintro ⟨name, hname, v, hv, h⟩
      obtain ⟨named, hnamed, hfields⟩ := ih.mp h
      have hkey : key.plainText = .ok name := by
        cases htext : key.plainText with
        | error e => simp [htext, Except.mapError] at hname
        | ok text => simpa [htext, Except.mapError] using hname
      exact ⟨(name, v) :: named, ⟨(name, v), named, ⟨hkey, hv⟩, hnamed, rfl⟩, hfields⟩
    · rintro ⟨_, ⟨⟨name, v⟩, named, ⟨hkey, hv⟩, hnamed, rfl⟩, hfields⟩
      have hname : Except.mapError DataFault.method key.plainText = .ok name := by
        simp [show key.plainText = .ok name from hkey, Except.mapError]
      exact ⟨name, hname, v, hv, ih.mpr ⟨named, hnamed, hfields⟩⟩

theorem toValue_list_eq_ok_iff : (list items).toValue = .ok v ↔
    ∃ values, List.Forall₂ (fun d v => d.toValue = .ok v) items values ∧
      v = .sequence values := by
  simp only [toValue, bind_eq_ok, toValues_eq_ok_iff]
  simp [pure, Except.pure, eq_comm]

theorem toValue_tuple_eq_ok_iff : (tuple items).toValue = .ok v ↔
    ∃ values, List.Forall₂ (fun d v => d.toValue = .ok v) items values ∧
      v = .sequence values := by
  simp only [toValue, bind_eq_ok, toValues_eq_ok_iff]
  simp [pure, Except.pure, eq_comm]

theorem toValue_map_eq_ok_iff : (map entries).toValue = .ok v ↔
    ∃ named, List.Forall₂ Becomes entries named ∧ v = .record (NameMap.ofList named) := by
  simp only [toValue, bind_eq_ok, toFields_eq_ok_iff]
  constructor
  · rintro ⟨_, ⟨named, hnamed, rfl⟩, h⟩
    exact ⟨named, hnamed, (Except.ok.inj h).symm⟩
  · rintro ⟨named, hnamed, rfl⟩
    exact ⟨_, ⟨named, hnamed, rfl⟩, rfl⟩

end Inversion

end Datum

namespace Value

mutual

/-- A value comes back from its plain data. -/
theorem toValue_toDatum {v : Value} (h : v.HasDistinctNames) : v.toDatum.toValue = .ok v := by
  match v with
  | scalar a => cases a <;> rfl
  | sequence items =>
    have hitems := hasDistinctNames_sequence.mp h
    exact Datum.toValue_list_eq_ok_iff.mpr ⟨items, forall₂_itemsToDatum hitems, rfl⟩
  | record fields =>
    obtain ⟨hnodup, hfields⟩ := hasDistinctNames_record.mp h
    refine Datum.toValue_map_eq_ok_iff.mpr ⟨fields, forall₂_fieldsToDatum hfields, ?_⟩
    rw [NameMap.ofList_of_nodup hnodup]
  | absent => rfl

theorem forall₂_itemsToDatum {items : List Value} (h : ∀ v ∈ items, v.HasDistinctNames) :
    List.Forall₂ (fun d v => d.toValue = .ok v) (itemsToDatum items) items := by
  match items with
  | [] => exact .nil
  | v :: items =>
    obtain ⟨hv, hitems⟩ := List.forall_mem_cons.mp h
    exact .cons (toValue_toDatum hv) (forall₂_itemsToDatum hitems)

theorem forall₂_fieldsToDatum {fields : List (String × Value)}
    (h : ∀ field ∈ fields, field.2.HasDistinctNames) :
    List.Forall₂ Datum.Becomes (fieldsToDatum fields) fields := by
  match fields with
  | [] => exact .nil
  | (name, v) :: fields =>
    obtain ⟨hv, hfields⟩ := List.forall_mem_cons.mp h
    exact .cons ⟨rfl, toValue_toDatum hv⟩ (forall₂_fieldsToDatum hfields)

end

end Value

namespace Datum

theorem itemsToDatum_of_forall₂ {items : List Datum} {values : List Value}
    (h : List.Forall₂ (fun d v => Value.toDatum v = d) items values) :
    Value.itemsToDatum values = items := by
  induction h with
  | nil => rfl
  | cons hd _ ih => rw [Value.itemsToDatum, hd, ih]

theorem fieldsToDatum_of_forall₂ {entries : List (Datum × Datum)}
    {fields : List (String × Value)}
    (h : List.Forall₂ (fun entry field => .text field.1 = entry.1 ∧ Value.toDatum field.2 = entry.2)
      entries fields) : Value.fieldsToDatum fields = entries := by
  induction h with
  | nil => rfl
  | @cons entry field entries fields hentry _ ih =>
    obtain ⟨hkey, hitem⟩ := hentry
    rw [Value.fieldsToDatum, hkey, hitem, ih]

theorem keys_fieldsToDatum (fields : List (String × Value)) :
    (Value.fieldsToDatum fields).map Prod.fst = (NameMap.names fields).map Datum.text := by
  induction fields with
  | nil => rfl
  | cons field fields ih =>
    obtain ⟨name, v⟩ := field
    exact congrArg (Datum.text name :: ·) ih

/-- Plain data come back from their value. -/
theorem IsPlain.toDatum_toValue {d : Datum} (h : d.IsPlain) (hkeys : d.HasDistinctKeys) :
    ∃ v, d.toValue = .ok v ∧ v.toDatum = d := by
  induction h with
  | null | truth | integer | real | text => exact ⟨_, rfl, rfl⟩
  | @list items _ ih =>
    have hitems : ∀ d ∈ items, ∃ v, d.toValue = .ok v ∧ v.toDatum = d := fun d hd =>
      ih d hd fun entries hentries => hkeys entries (.listItem hd hentries)
    obtain ⟨values, hvalues⟩ := exists_forall₂ hitems
    refine ⟨.sequence values, toValue_list_eq_ok_iff.mpr ⟨values, ?_, rfl⟩, ?_⟩
    · exact hvalues.imp fun _ _ h => h.1
    · rw [Value.toDatum, itemsToDatum_of_forall₂ (hvalues.imp fun _ _ h => h.2)]
  | @map entries hnames _ ih =>
    have hentries : ∀ entry ∈ entries, ∃ field : String × Value, Becomes entry field ∧
        .text field.1 = entry.1 ∧ field.2.toDatum = entry.2 := by
      intro entry hentry
      obtain ⟨name, hname⟩ := hnames entry hentry
      obtain ⟨v, hv, hback⟩ := ih entry hentry fun es hes => hkeys es (.item hentry hes)
      refine ⟨(name, v), ⟨?_, hv⟩, hname.symm, hback⟩
      rw [hname]
      rfl
    obtain ⟨named, hnamed⟩ := exists_forall₂ hentries
    have hback := fieldsToDatum_of_forall₂ (hnamed.imp fun _ _ h => h.2)
    -- The keys are the texts of the names, so that the names differ as the keys do.
    have hmap : entries.map Prod.fst = (NameMap.names named).map Datum.text := by
      rw [← hback]
      exact keys_fieldsToDatum named
    have hnodup : (NameMap.names named).Nodup :=
      List.Nodup.of_map Datum.text (hmap ▸ hkeys entries .self)
    refine ⟨.record named, toValue_map_eq_ok_iff.mpr ⟨named, ?_, ?_⟩, ?_⟩
    · exact hnamed.imp fun _ _ h => h.1
    · rw [NameMap.ofList_of_nodup hnodup]
    · rw [Value.toDatum, hback]

theorem IsPlainKey.exists_text {key : Datum} (h : key.IsPlainKey) :
    ∃ name, key.plainText = .ok name := by
  cases h with
  | null | truth | real | text => exact ⟨_, rfl⟩
  | @integer n h =>
    have htext : (Datum.integer n).plainText = (writeInteger n).mapError MethodFault.integer := rfl
    exact ⟨toString n, by rw [htext, writeInteger_of_not_isLong h]; rfl⟩

mutual

/-- Conversion makes no records with two fields of one name. -/
theorem hasDistinctNames_of_toValue {d : Datum} {v : Value}
    (hgiven : ∀ w, Within (.value w) d → w.HasDistinctNames) (h : d.toValue = .ok v) :
    v.HasDistinctNames := by
  match d with
  | null =>
    obtain rfl := Except.ok.inj h
    exact Value.hasDistinctNames_absent
  | truth _ | integer _ | real _ | text _ =>
    obtain rfl := Except.ok.inj h
    exact Value.hasDistinctNames_scalar _
  | list items =>
    obtain ⟨values, hitems, rfl⟩ := toValue_list_eq_ok_iff.mp h
    refine Value.hasDistinctNames_sequence.mpr (hasDistinctNames_of_items ?_ hitems)
    exact fun d hd w hw => hgiven w (.listItem hd hw)
  | tuple items =>
    obtain ⟨values, hitems, rfl⟩ := toValue_tuple_eq_ok_iff.mp h
    refine Value.hasDistinctNames_sequence.mpr (hasDistinctNames_of_items ?_ hitems)
    exact fun d hd w hw => hgiven w (.tupleItem hd hw)
  | map entries =>
    obtain ⟨named, hnamed, rfl⟩ := toValue_map_eq_ok_iff.mp h
    have hvalues : ∀ field ∈ named, field.2.HasDistinctNames :=
      hasDistinctNames_of_entries (fun entry hentry w hw => hgiven w (.item hentry hw)) hnamed
    refine Value.hasDistinctNames_record.mpr ⟨NameMap.nodup_names_ofList named, ?_⟩
    exact fun field hfield => hvalues field (NameMap.mem_of_mem_ofList hfield)
  | value w =>
    obtain rfl := Except.ok.inj h
    exact hgiven w .self
  | date .. | foreign _ => cases h

theorem hasDistinctNames_of_items {items : List Datum} {values : List Value}
    (hgiven : ∀ d ∈ items, ∀ w, Within (.value w) d → w.HasDistinctNames)
    (h : List.Forall₂ (fun d v => d.toValue = .ok v) items values) :
    ∀ v ∈ values, v.HasDistinctNames := by
  match items with
  | [] =>
    obtain rfl := List.forall₂_nil_left_iff.mp h
    simp
  | d :: items =>
    obtain ⟨v, values, hv, hvalues, rfl⟩ := List.forall₂_cons_left_iff.mp h
    obtain ⟨hd, hitems⟩ := List.forall_mem_cons.mp hgiven
    exact List.forall_mem_cons.mpr
      ⟨hasDistinctNames_of_toValue hd hv, hasDistinctNames_of_items hitems hvalues⟩

theorem hasDistinctNames_of_entries {entries : List (Datum × Datum)}
    {named : List (String × Value)}
    (hgiven : ∀ entry ∈ entries, ∀ w, Within (.value w) entry.2 → w.HasDistinctNames)
    (h : List.Forall₂ Becomes entries named) : ∀ field ∈ named, field.2.HasDistinctNames := by
  match entries with
  | [] =>
    obtain rfl := List.forall₂_nil_left_iff.mp h
    simp
  | (key, item) :: entries =>
    obtain ⟨field, named, hfield, hnamed, rfl⟩ := List.forall₂_cons_left_iff.mp h
    obtain ⟨hitem, hentries⟩ := List.forall_mem_cons.mp hgiven
    exact List.forall_mem_cons.mpr
      ⟨hasDistinctNames_of_toValue hitem hfield.2, hasDistinctNames_of_entries hentries hnamed⟩

end

section Unsupported

variable {part d : Datum}

theorem Within.exists_toValue (h : Within part d) {v : Value} (hv : d.toValue = .ok v) :
    ∃ w, part.toValue = .ok w := by
  induction h generalizing v with
  | self => exact ⟨v, hv⟩
  | listItem hmem _ ih =>
    obtain ⟨values, hvalues, -⟩ := toValue_list_eq_ok_iff.mp hv
    obtain ⟨w, -, hw⟩ := exists_right_of_mem hvalues hmem
    exact ih hw
  | tupleItem hmem _ ih =>
    obtain ⟨values, hvalues, -⟩ := toValue_tuple_eq_ok_iff.mp hv
    obtain ⟨w, -, hw⟩ := exists_right_of_mem hvalues hmem
    exact ih hw
  | item hmem _ ih =>
    obtain ⟨named, hnamed, -⟩ := toValue_map_eq_ok_iff.mp hv
    obtain ⟨field, -, -, hw⟩ := exists_right_of_mem hnamed hmem
    exact ih hw

mutual

/-- Where every key is plain, nothing but an unsupported part is refused. -/
theorem exists_unsupported {d : Datum} {fault : DataFault} (hkeys : d.HasPlainKeys)
    (h : d.toValue = .error fault) : ∃ part typeName, Within part d ∧
      IsUnsupported typeName part ∧ fault = .notConvertible typeName := by
  match d with
  | null | truth _ | integer _ | real _ | text _ | value _ => cases h
  | date year month day => exact ⟨_, "date", .self, .date, (Except.error.inj h).symm⟩
  | foreign thing => exact ⟨_, _, .self, .foreign, (Except.error.inj h).symm⟩
  | list items =>
    have hitems : toValues items = .error fault := bind_pure_eq_error.mp h
    obtain ⟨d, hd, part, typeName, hpart, hfault⟩ := exists_unsupported_item
      (fun d hd entries hentries => hkeys entries (.listItem hd hentries)) hitems
    exact ⟨part, typeName, .listItem hd hpart, hfault⟩
  | tuple items =>
    have hitems : toValues items = .error fault := bind_pure_eq_error.mp h
    obtain ⟨d, hd, part, typeName, hpart, hfault⟩ := exists_unsupported_item
      (fun d hd entries hentries => hkeys entries (.tupleItem hd hentries)) hitems
    exact ⟨part, typeName, .tupleItem hd hpart, hfault⟩
  | map entries =>
    have hfields : toFields [] entries = .error fault := bind_pure_eq_error.mp h
    obtain ⟨entry, hentry, part, typeName, hpart, hfault⟩ :=
      exists_unsupported_entry (hkeys entries .self)
        (fun entry hentry es hes => hkeys es (.item hentry hes)) hfields
    exact ⟨part, typeName, .item hentry hpart, hfault⟩

theorem exists_unsupported_item {items : List Datum} {fault : DataFault}
    (hkeys : ∀ d ∈ items, HasPlainKeys d) (h : toValues items = .error fault) :
    ∃ d ∈ items, ∃ part typeName, Within part d ∧
      IsUnsupported typeName part ∧ fault = .notConvertible typeName := by
  match items with
  | [] => cases h
  | d :: items =>
    obtain ⟨hd, hitems⟩ := List.forall_mem_cons.mp hkeys
    rcases bind_eq_error.mp h with hfirst | ⟨v, -, hrest⟩
    · exact ⟨d, List.mem_cons_self, exists_unsupported hd hfirst⟩
    · have hothers : toValues items = .error fault := bind_pure_eq_error.mp hrest
      obtain ⟨d', hd', hfault⟩ := exists_unsupported_item hitems hothers
      exact ⟨d', List.mem_cons_of_mem _ hd', hfault⟩

theorem exists_unsupported_entry {entries : List (Datum × Datum)} {done : NameMap Value}
    {fault : DataFault} (hplain : ∀ entry ∈ entries, IsPlainKey entry.1)
    (hkeys : ∀ entry ∈ entries, HasPlainKeys entry.2)
    (h : toFields done entries = .error fault) :
    ∃ entry ∈ entries, ∃ part typeName, Within part entry.2 ∧
      IsUnsupported typeName part ∧ fault = .notConvertible typeName := by
  match entries with
  | [] => cases h
  | (key, item) :: entries =>
    obtain ⟨hkey, hplain⟩ := List.forall_mem_cons.mp hplain
    obtain ⟨hitem, hkeys⟩ := List.forall_mem_cons.mp hkeys
    obtain ⟨name, hname⟩ := hkey.exists_text
    dsimp only at hname
    rcases bind_eq_error.mp h with hnone | ⟨name, -, h⟩
    · simp [hname, Except.mapError] at hnone
    rcases bind_eq_error.mp h with hv | ⟨v, -, hrest⟩
    · exact ⟨(key, item), List.mem_cons_self, exists_unsupported hitem hv⟩
    · obtain ⟨entry, hentry, hfault⟩ := exists_unsupported_entry hplain hkeys hrest
      exact ⟨entry, List.mem_cons_of_mem _ hentry, hfault⟩

end

theorem exists_error_iff {d : Datum} (hkeys : d.HasPlainKeys) :
    (∃ typeName, d.toValue = .error (.notConvertible typeName)) ↔
      ∃ part typeName, Within part d ∧ IsUnsupported typeName part := by
  constructor
  · rintro ⟨typeName, h⟩
    obtain ⟨part, typeName, hpart, hunsupported, -⟩ := exists_unsupported hkeys h
    exact ⟨part, typeName, hpart, hunsupported⟩
  · rintro ⟨part, typeName, hpart, hunsupported⟩
    cases h : d.toValue with
    | error fault =>
      obtain ⟨-, typeName, -, -, rfl⟩ := exists_unsupported hkeys h
      exact ⟨typeName, rfl⟩
    | ok v =>
      obtain ⟨w, hw⟩ := hpart.exists_toValue h
      cases hunsupported <;> cases hw

end Unsupported

/-- A value comes back from its plain data; plain data without two equal keys come back from their
value. The keys of a map may also be numbers, truth values or nothing: each entry becomes a field
under its key's text, and fields of one name are merged. With such keys throughout, data are refused
exactly if an unsupported part stands in them. -/
theorem conversion_lossless :
    (∀ v : Value.WellNamed, v.value.toDatum.toValue = .ok v.value) ∧
    (∀ d : Datum, d.IsPlain → d.HasDistinctKeys → ∃ v, d.toValue = .ok v ∧ v.toDatum = d) ∧
    (∀ entries : List (Datum × Datum), (∀ entry ∈ entries, IsPlainKey entry.1) →
      (∀ entry ∈ entries, ∃ v, entry.2.toValue = .ok v) →
      ∃ named fields, List.Forall₂ Becomes entries named ∧
        (map entries).toValue = .ok (.record fields) ∧ NameMap.IsMerged named fields) ∧
    ∀ d : Datum, d.HasPlainKeys →
      ((∃ typeName, d.toValue = .error (.notConvertible typeName)) ↔
        ∃ part typeName, Within part d ∧ IsUnsupported typeName part) ∧
      ∀ fault, d.toValue = .error fault → ∃ part typeName, Within part d ∧
        IsUnsupported typeName part ∧ fault = .notConvertible typeName := by
  refine ⟨fun v => Value.toValue_toDatum v.hasDistinctNames, fun d => IsPlain.toDatum_toValue,
    ?_, ?_⟩
  · intro entries hkeys hitems
    have hfields : ∀ entry ∈ entries, ∃ field, Becomes entry field := by
      intro entry hentry
      obtain ⟨name, hname⟩ := (hkeys entry hentry).exists_text
      obtain ⟨v, hv⟩ := hitems entry hentry
      exact ⟨(name, v), hname, hv⟩
    obtain ⟨named, hnamed⟩ := exists_forall₂ hfields
    refine ⟨named, NameMap.ofList named, hnamed, ?_, NameMap.isMerged_ofList named⟩
    exact toValue_map_eq_ok_iff.mpr ⟨named, hnamed, rfl⟩
  · intro d hkeys
    exact ⟨exists_error_iff hkeys, fun fault => exists_unsupported hkeys⟩

/-- The number and the text share a field, under the place of the first and with the value of the
second. A set among the items is refused. -/
theorem conversion_lossless_sharing :
    (Value.record [("on", .scalar (.truth true)), ("size", .absent)]).toDatum.toValue =
      .ok (.record [("on", .scalar (.truth true)), ("size", .absent)]) ∧
    (∃ v, (map [(text "a", list [truth true, null])]).toValue = .ok v ∧
      v.toDatum = map [(text "a", list [truth true, null])]) ∧
    (∃ fields, (map [(integer 1, truth true), (text "1", null)]).toValue = .ok (.record fields) ∧
      NameMap.names fields = ["1"] ∧ NameMap.get? fields "1" = some .absent) ∧
    ∃ typeName, (map [(truth true, foreign { typeName := "set" })]).toValue =
      .error (.notConvertible typeName) := by
  obtain ⟨hback, hforth, hmerged, hrefused⟩ := conversion_lossless
  refine ⟨hback ⟨_, ?_⟩, hforth _ ?_ ?_, ?_, ((hrefused _ ?_).1).mpr ?_⟩
  · simp [Value.HasDistinctNames, NameMap.names]
  · refine .map (by simp) ?_
    simp only [List.forall_mem_singleton]
    exact .list (by simp [IsPlain.truth, IsPlain.null])
  · intro entries h
    cases h with
    | self => simp
    | item hmem h =>
      obtain rfl := List.mem_singleton.mp hmem
      cases h with
      | listItem hmem h =>
        obtain rfl | rfl : _ = truth true ∨ _ = null := by simpa using hmem
        · cases h
        · cases h
  · have hkeys : ∀ entry ∈ [(integer 1, truth true), (text "1", null)], IsPlainKey entry.1 := by
      simp only [List.forall_mem_cons, List.not_mem_nil, IsEmpty.forall_iff, implies_true, and_true]
      exact ⟨.integer (isLong_iff.not.mpr (by decide)), .text⟩
    have hitems : ∀ entry ∈ [(integer 1, truth true), (text "1", null)],
        ∃ v, entry.2.toValue = .ok v := by
      simp [toValue]
    obtain ⟨named, fields, hnamed, hfields, hmerge⟩ := hmerged _ hkeys hitems
    obtain ⟨field, _, ⟨hname, hv⟩, hrest, rfl⟩ := List.forall₂_cons_left_iff.mp hnamed
    obtain ⟨field', _, ⟨hname', hv'⟩, hnil, rfl⟩ := List.forall₂_cons_left_iff.mp hrest
    obtain rfl := List.forall₂_nil_left_iff.mp hnil
    have hone : field.1 = "1" := (Except.ok.inj hname).symm
    have hone' : field'.1 = "1" := (Except.ok.inj hname').symm
    have habsent : field'.2 = .absent := (Except.ok.inj hv').symm
    refine ⟨fields, hfields, ?_, ?_⟩
    · rw [hmerge.names_eq]
      simp [NameMap.names, hone, hone', List.eraseDups_cons]
    · rw [hmerge.get?_eq]
      simp [NameMap.get?, hone', habsent]
  · intro entries h entry hentry
    cases h with
    | self =>
      obtain rfl := List.mem_singleton.mp hentry
      exact .truth
    | item hmem h =>
      obtain rfl := List.mem_singleton.mp hmem
      cases h
  · exact ⟨_, _, .item (List.mem_singleton.mpr rfl) .self, .foreign⟩

end Datum

end TextTemplate
