/-! Values under names, in the order in which the names first came. -/

namespace TextTemplate

abbrev NameMap (α : Type) := List (String × α)

namespace NameMap

variable {α : Type}

def get? : NameMap α → String → Option α
  | [], _ => none
  | (key, x) :: rest, name => if key = name then some x else get? rest name

def contains (m : NameMap α) (name : String) : Bool :=
  (m.get? name).isSome

/-- Replaces the value of a name in its place, or adds the name at the end. -/
def put (name : String) (x : α) : NameMap α → NameMap α
  | [] => [(name, x)]
  | (key, y) :: rest => if key = name then (name, x) :: rest else (key, y) :: put name x rest

/-- The first place and the last value of every name. -/
def ofList (entries : List (String × α)) : NameMap α :=
  entries.foldl (fun m entry => m.put entry.1 entry.2) []

def names (m : NameMap α) : List String :=
  m.map Prod.fst

def sortedNames (m : NameMap α) : List String :=
  m.names.mergeSort fun a b => a ≤ b

theorem get?_put (m : NameMap α) (name key : String) (x : α) :
    (m.put name x).get? key = if key = name then some x else m.get? key := by
  induction m with
  | nil => simp [put, get?, eq_comm]
  | cons entry rest ih =>
    simp only [put]
    split <;> simp only [get?] <;> grind

theorem get?_map {β : Type} (m : NameMap α) (f : α → β) (name : String) :
    NameMap.get? (m.map fun entry => (entry.1, f entry.2)) name = (m.get? name).map f := by
  induction m with
  | nil => rfl
  | cons entry rest ih =>
    rw [List.map_cons, get?, get?, ih]
    split <;> rfl

theorem mem_names_put (m : NameMap α) (name key : String) (x : α) :
    key ∈ (m.put name x).names ↔ key = name ∨ key ∈ m.names := by
  induction m with
  | nil => simp [put, names]
  | cons entry rest ih =>
    obtain ⟨k, y⟩ := entry
    simp only [put, names] at ih ⊢
    by_cases hk : k = name
    · subst hk; simp
    · simp only [hk, if_false, List.map_cons, List.mem_cons, ih]
      grind

theorem nodup_names_put {m : NameMap α} (h : m.names.Nodup) (name : String) (x : α) :
    (m.put name x).names.Nodup := by
  induction m with
  | nil => simp [put, names]
  | cons entry rest ih =>
    obtain ⟨k, y⟩ := entry
    simp only [names, List.map_cons, List.nodup_cons] at h
    simp only [put]
    by_cases hk : k = name
    · subst hk; simpa [names] using h
    · simp only [hk, if_false, names, List.map_cons, List.nodup_cons]
      exact ⟨fun hm => ((mem_names_put rest name k x).1 hm).elim hk h.1, ih h.2⟩

end NameMap

end TextTemplate
