import Mathlib
import TextTemplate.Value

/-! What stands in a value: the fields of a record under their names, and the parts of a value at
any depth. -/

namespace TextTemplate

theorem option_rel_iff {α β : Type} {R : α → β → Prop} {x? : Option α} {y? : Option β} :
    Option.Rel R x? y? ↔
      (x?.isSome ↔ y?.isSome) ∧ ∀ x y, x? = some x → y? = some y → R x y := by
  cases x? <;> cases y? <;> simp

namespace NameMap

variable {α : Type} {m : NameMap α} {name : String} {x : α}

theorem mem_of_get? (h : m.get? name = some x) : (name, x) ∈ m := by
  induction m with
  | nil => cases h
  | cons entry rest ih =>
    obtain ⟨key, y⟩ := entry
    rw [get?] at h
    split at h
    · rename_i hkey
      obtain rfl := Option.some.inj h
      exact hkey ▸ List.mem_cons_self
    · exact List.mem_cons_of_mem _ (ih h)

theorem get?_of_mem (hnames : m.names.Nodup) (h : (name, x) ∈ m) : m.get? name = some x := by
  induction m with
  | nil => cases h
  | cons entry rest ih =>
    obtain ⟨key, y⟩ := entry
    obtain ⟨hkey, hrest⟩ := List.nodup_cons.mp hnames
    rw [get?]
    obtain heq | hmem := List.mem_cons.mp h
    · obtain ⟨rfl, rfl⟩ := Prod.mk.inj heq
      exact if_pos rfl
    · have hne : key ≠ name := by
        rintro rfl
        exact hkey (List.mem_map.mpr ⟨_, hmem, rfl⟩)
      rw [if_neg hne, ih hrest hmem]

theorem get?_eq_none_iff : m.get? name = none ↔ name ∉ m.names := by
  induction m with
  | nil => simp [get?, names]
  | cons entry rest ih =>
    obtain ⟨key, y⟩ := entry
    rw [get?]
    by_cases hkey : key = name
    · simp [hkey, names]
    · rw [if_neg hkey, ih]
      simp [names, Ne.symm hkey]

theorem names_map {β : Type} (m : NameMap α) (f : α → β) :
    names (m.map fun entry => (entry.1, f entry.2)) = m.names := by
  simp [names, Function.comp_def]

theorem isSome_get?_iff : (m.get? name).isSome ↔ name ∈ m.names := by
  rw [← not_iff_not, Option.not_isSome_iff_eq_none, get?_eq_none_iff]

section Rel

variable {β : Type} {R : α → β → Prop} {n : NameMap β}

/-- Maps agree at every name if they have the same names and agree at each of them. -/
theorem forall_rel_get?_iff : (∀ name, Option.Rel R (m.get? name) (n.get? name)) ↔
    (∀ name, name ∈ m.names ↔ name ∈ n.names) ∧
      ∀ name x y, m.get? name = some x → n.get? name = some y → R x y := by
  simp only [option_rel_iff, isSome_get?_iff, forall_and]

/-- Maps of one size agree at every name if the second has all that the first holds. -/
theorem rel_get?_iff (hm : m.names.Nodup) (hn : n.names.Nodup) :
    (∀ name, Option.Rel R (m.get? name) (n.get? name)) ↔
      m.length = n.length ∧ ∀ entry ∈ m, ∃ y, n.get? entry.1 = some y ∧ R entry.2 y := by
  rw [forall_rel_get?_iff]
  constructor
  · rintro ⟨hnames, hrel⟩
    have hperm : m.names.Perm n.names := (List.perm_ext_iff_of_nodup hm hn).mpr hnames
    refine ⟨by simpa [names] using hperm.length_eq, ?_⟩
    rintro ⟨name, x⟩ hentry
    have hmem : name ∈ n.names := (hnames name).mp (List.mem_map_of_mem hentry)
    obtain ⟨y, hy⟩ := Option.isSome_iff_exists.mp (isSome_get?_iff.mpr hmem)
    exact ⟨y, hy, hrel name x y (get?_of_mem hm hentry) hy⟩
  · rintro ⟨hlength, hentries⟩
    have hsubset : m.names ⊆ n.names := by
      intro name hname
      obtain ⟨entry, hentry, rfl⟩ := List.mem_map.mp hname
      obtain ⟨y, hy, -⟩ := hentries entry hentry
      exact isSome_get?_iff.mp (Option.isSome_of_eq_some hy)
    -- As many names as in the first map, and all of those, leave no room for a further one.
    have hperm : m.names.Perm n.names := (List.subperm_of_subset hm hsubset).perm_of_length_le (by
      simp [names, hlength])
    refine ⟨fun name => hperm.mem_iff, fun name x y hx hy => ?_⟩
    obtain ⟨y', hy', hxy⟩ := hentries _ (mem_of_get? hx)
    obtain rfl := Option.some.inj (hy.symm.trans hy')
    exact hxy

end Rel

end NameMap

namespace Value

/-- A statement about all values, from one about each that may use it for the parts. -/
theorem induction_parts {motive : Value → Prop} (scalar : ∀ a, motive (.scalar a))
    (sequence : ∀ items, (∀ v ∈ items, motive v) → motive (.sequence items))
    (record : ∀ fields, (∀ field ∈ fields, motive field.2) → motive (.record fields))
    (absent : motive .absent) (v : Value) : motive v := by
  cases v with
  | scalar a => exact scalar a
  | sequence items =>
    exact sequence items fun v _ => induction_parts scalar sequence record absent v
  | record fields =>
    exact record fields fun field _ => induction_parts scalar sequence record absent field.2
  | absent => exact absent
termination_by v
decreasing_by
  · have := List.sizeOf_lt_of_mem ‹v ∈ items›
    rw [Value.sequence.sizeOf_spec]
    omega
  · have := List.sizeOf_lt_of_mem ‹field ∈ fields›
    obtain ⟨name, v⟩ := field
    rw [Prod.mk.sizeOf_spec] at this
    rw [Value.record.sizeOf_spec]
    dsimp only
    omega

/-- The first value is the second one or stands somewhere in it. -/
inductive Within (part : Value) : Value → Prop
  | self : Within part part
  | item {v : Value} {items : List Value} : v ∈ items → Within part v →
      Within part (sequence items)
  | field {name : String} {v : Value} {fields : List (String × Value)} : (name, v) ∈ fields →
      Within part v → Within part (record fields)

section Within

variable {part : Value}

@[simp] theorem within_scalar {a : Scalar} : Within part (scalar a) ↔ part = scalar a := by
  constructor
  · rintro ⟨⟩
    rfl
  · rintro rfl
    exact .self

@[simp] theorem within_absent : Within part absent ↔ part = absent := by
  constructor
  · rintro ⟨⟩
    rfl
  · rintro rfl
    exact .self

@[simp] theorem within_sequence {items : List Value} :
    Within part (sequence items) ↔ part = sequence items ∨ ∃ v ∈ items, Within part v := by
  constructor
  · rintro (_ | ⟨hv, hpart⟩)
    · exact .inl rfl
    · exact .inr ⟨_, hv, hpart⟩
  · rintro (rfl | ⟨v, hv, hpart⟩)
    · exact .self
    · exact .item hv hpart

@[simp] theorem within_record {fields : List (String × Value)} :
    Within part (record fields) ↔
      part = record fields ∨ ∃ entry ∈ fields, Within part entry.2 := by
  constructor
  · rintro (_ | _ | ⟨hv, hpart⟩)
    · exact .inl rfl
    · exact .inr ⟨_, hv, hpart⟩
  · rintro (rfl | ⟨entry, hentry, hpart⟩)
    · exact .self
    · exact .field hentry hpart

end Within

/-- No record in the value has two fields of one name. -/
def HasDistinctNames (v : Value) : Prop :=
  ∀ fields, Within (record fields) v → (NameMap.names fields).Nodup

/-- The values that are made: a record is made of a map, which holds every name once. -/
structure WellNamed where
  value : Value
  hasDistinctNames : value.HasDistinctNames

section Names

variable {v : Value} {items : List Value} {name : String} {fields : List (String × Value)}

theorem hasDistinctNames_scalar (a : Scalar) : (scalar a).HasDistinctNames := by
  simp [HasDistinctNames]

theorem hasDistinctNames_sequence :
    (sequence items).HasDistinctNames ↔ ∀ v ∈ items, v.HasDistinctNames := by
  constructor
  · exact fun h v hv fields hfields => h fields (.item hv hfields)
  · rintro h fields (_ | ⟨hv, hfields⟩)
    exact h _ hv fields hfields

theorem hasDistinctNames_record : (record fields).HasDistinctNames ↔
    (NameMap.names fields).Nodup ∧ ∀ field ∈ fields, field.2.HasDistinctNames := by
  constructor
  · intro h
    exact ⟨h fields .self, fun field hfield fs hfs => h fs (.field hfield hfs)⟩
  · rintro ⟨hnodup, h⟩ fs (_ | _ | ⟨hfield, hfs⟩)
    · exact hnodup
    · exact h _ hfield fs hfs

theorem hasDistinctNames_absent : absent.HasDistinctNames := by
  simp [HasDistinctNames]

end Names

end Value

end TextTemplate
