import Mathlib
import TextTemplate.Formatter.Registry
import TextTemplate.Proofs.Parts
import TextTemplate.Proofs.Machine

/-! Families of registries over every history. Each registry has a table of its own: a name stands
for what was registered last under it, or else for what it stood for in the registry that this one
was copied from, at that moment. The table of the built-in formatters stays as it is. -/

namespace TextTemplate

namespace NameMap

variable {α : Type} {m : NameMap α}

theorem mem_sortedNames {name : String} :
    name ∈ m.sortedNames ↔ (m.get? name).isSome = true := by
  rw [sortedNames, List.mem_mergeSort, Option.isSome_iff_ne_none, Ne, get?_eq_none_iff, not_not]

theorem pairwise_sortedNames (h : m.names.Nodup) : m.sortedNames.Pairwise (· < ·) := by
  have hsorted : m.sortedNames.Pairwise fun a b => decide (a ≤ b) = true :=
    List.pairwise_mergeSort (by simpa using fun _ _ _ => le_trans)
      (by simpa using fun a b => le_total a b) m.names
  have hdistinct : m.sortedNames.Nodup := (List.mergeSort_perm _ _).nodup_iff.mpr h
  refine (hsorted.and hdistinct).imp fun hab => ?_
  exact lt_of_le_of_ne (of_decide_eq_true hab.1) hab.2

end NameMap

inductive RegistryEvent where
  | empty
  | standard (mode : EscapeMode)
  | copy (member : Nat)
  | register (member : Nat) (name : String) (candidate : Option Formatter)

inductive RegistryAnswer where
  | made
  | registered (log : Log)
  | rejected (error : NotCallable)
  | missing

/-- Registries in the order in which they were made. -/
abbrev RegistryFamily := List FormatterRegistry

namespace RegistryFamily

open RegistryEvent

/-- What a new registry holds when it is made. -/
def origin? (rs : RegistryFamily) : RegistryEvent → Option FormatterRegistry
  | .empty => some []
  | .standard mode => some (.standard mode)
  | .copy member => rs[member]?
  | .register .. => none

def respond : Machine RegistryFamily RegistryEvent RegistryAnswer
  | rs, .empty => (.made, rs ++ [[]])
  | rs, .standard mode => (.made, rs ++ [.standard mode])
  | rs, .copy member =>
    match rs[member]? with
    | none => (.missing, rs)
    | some r => (.made, rs ++ [r])
  | rs, .register member name candidate =>
    match rs[member]? with
    | none => (.missing, rs)
    | some r =>
      match r.register name candidate with
      | .ok (r, log) => (.registered log, rs.set member r)
      | .error e => (.rejected e, rs)

/-- What was accepted under the name, the last one at the end. -/
def accepted (member : Nat) (name : String) (events : List RegistryEvent) : List Formatter :=
  events.filterMap fun
    | .register m n candidate => if m = member ∧ n = name then candidate else none
    | _ => none

def overwriteWarning (name : String) : LogEntry :=
  .warning s!"Formatter '{name}' overwrites existing formatter"

section Step

variable {rs : RegistryFamily} {member : Nat} {name : String} {r : FormatterRegistry}

theorem respond_register (h : rs[member]? = some r) (name : String)
    (candidate : Option Formatter) :
    respond rs (.register member name candidate) =
      match candidate with
      | none => (.rejected ⟨name⟩, rs)
      | some f => (.registered (if (r.get? name).isSome then [overwriteWarning name] else []),
          rs.set member (NameMap.put name f r)) := by
  rw [respond, h]
  cases candidate with
  | none => rfl
  | some f => rfl

theorem respond_missing (h : rs[member]? = none) (name : String)
    (candidate : Option Formatter) :
    respond rs (.register member name candidate) = (.missing, rs) := by
  rw [respond, h]

theorem respond_of_origin? {e : RegistryEvent} (h : rs.origin? e = some r) :
    respond rs e = (.made, rs ++ [r]) := by
  cases e with
  | empty | standard =>
    obtain rfl := Option.some.inj h
    rfl
  | copy i =>
    have hi : rs[i]? = some r := h
    rw [respond, hi]
  | register => cases h

/-- An event makes a registry, or gives a name of one registry a formatter, or changes nothing. -/
theorem respond_cases (rs : RegistryFamily) (e : RegistryEvent) :
    (∃ r, rs.origin? e = some r ∧ (respond rs e).2 = rs ++ [r]) ∨
    (∃ member name f r, e = .register member name (some f) ∧ rs[member]? = some r ∧
      (respond rs e).2 = rs.set member (NameMap.put name f r)) ∨
    ((respond rs e).2 = rs ∧ rs.origin? e = none ∧
      ∀ member name f, e = .register member name (some f) → rs[member]? = none) := by
  cases horigin : rs.origin? e with
  | some r =>
    rw [respond_of_origin? horigin]
    exact .inl ⟨r, rfl, rfl⟩
  | none =>
    cases e with
    | empty | standard => cases horigin
    | copy i =>
      have hi : rs[i]? = none := horigin
      refine .inr (.inr ⟨?_, rfl, by simp⟩)
      rw [respond, hi]
    | register i key candidate =>
      cases hi : rs[i]? with
      | none =>
        rw [respond_missing hi]
        refine .inr (.inr ⟨rfl, rfl, fun member name f heq => ?_⟩)
        cases heq
        exact hi
      | some r =>
        rw [respond_register hi]
        cases candidate with
        | none => exact .inr (.inr ⟨rfl, rfl, by simp⟩)
        | some f => exact .inr (.inl ⟨i, key, f, r, rfl, hi, rfl⟩)

/-- An event that is about another registry leaves a registry as it is. -/
theorem getElem?_respond {e : RegistryEvent} (h : rs[member]? = some r)
    (he : ∀ name candidate, e ≠ .register member name candidate) :
    (respond rs e).2[member]? = some r := by
  obtain ⟨r', -, hmade⟩ | ⟨i, name, f, r', rfl, -, hput⟩ | ⟨hsame, -⟩ := respond_cases rs e
  · obtain ⟨hlt, -⟩ := List.getElem?_eq_some_iff.mp h
    rw [hmade, List.getElem?_append_left hlt, h]
  · have hne : i ≠ member := by
      rintro rfl
      exact he name (some f) rfl
    rw [hput, List.getElem?_set_ne hne, h]
  · rw [hsame, h]

theorem accepted_concat (member : Nat) (name : String) (events : List RegistryEvent)
    (e : RegistryEvent) :
    accepted member name (events ++ [e]) =
      accepted member name events ++ accepted member name [e] :=
  List.filterMap_append

/-- With an event, the name stands for what the event registers under it. -/
theorem get?_respond {e : RegistryEvent} (h : rs[member]? = some r) :
    ∃ r', (respond rs e).2[member]? = some r' ∧
      ∀ name, r'.get? name = (accepted member name [e]).getLast?.or (r.get? name) := by
  by_cases hother : ∀ name candidate, e ≠ .register member name candidate
  · refine ⟨r, getElem?_respond h hother, fun name => ?_⟩
    have hnone : accepted member name [e] = [] := by
      cases e with
      | register i key candidate =>
        have hne : ¬ (i = member ∧ key = name) := by
          rintro ⟨rfl, -⟩
          exact hother key candidate rfl
        simp [accepted, hne]
      | empty | standard | copy => rfl
    rw [hnone]
    rfl
  · push Not at hother
    obtain ⟨key, candidate, rfl⟩ := hother
    obtain ⟨hlt, -⟩ := List.getElem?_eq_some_iff.mp h
    rw [respond_register h]
    cases candidate with
    | none =>
      refine ⟨r, h, fun name => ?_⟩
      by_cases hname : key = name <;> simp [accepted, hname]
    | some f =>
      refine ⟨NameMap.put key f r, List.getElem?_set_self hlt, fun name => ?_⟩
      rw [NameMap.get?_put]
      by_cases hname : key = name
      · simp [accepted, hname]
      · simp [accepted, hname, Ne.symm hname]

end Step

section Run

/-- A registry of the family comes from an event at which it held what it was made with. Since then,
each name stands for what was accepted last under it. -/
def ComesFrom (past : List RegistryEvent) (member : Nat) (r : FormatterRegistry) : Prop :=
  ∃ before e behind origin, past = before ++ e :: behind ∧
    (respond.after [] before).length = member ∧ (respond.after [] before).origin? e = some origin ∧
    ∀ name, r.get? name = (accepted member name behind).getLast?.or (origin.get? name)

theorem comesFrom_after (past : List RegistryEvent) (member : Nat) (r : FormatterRegistry)
    (h : (respond.after [] past)[member]? = some r) : ComesFrom past member r := by
  induction past using List.reverseRecOn generalizing r with
  | nil => cases h
  | append_singleton past e ih =>
    rw [Machine.after_concat] at h
    cases hold : (respond.after [] past)[member]? with
    | some r' =>
      obtain ⟨before, first, behind, origin, rfl, hlength, horigin, hget⟩ := ih r' hold
      obtain ⟨r'', hr'', hnext⟩ := get?_respond (e := e) hold
      obtain rfl := Option.some.inj (h.symm.trans hr'')
      refine ⟨before, first, behind ++ [e], origin, by simp, hlength, horigin, fun name => ?_⟩
      rw [hnext, hget, accepted_concat, List.getLast?_append, Option.or_assoc]
    | none =>
      have hlength := List.getElem?_eq_none_iff.mp hold
      obtain ⟨r', horigin, hmade⟩ | ⟨i, name, f, r', -, -, hput⟩ | ⟨hsame, -⟩ :=
        respond_cases (respond.after [] past) e
      · rw [hmade, getElem?_concat] at h
        split_ifs at h with hmember
        · obtain rfl := Option.some.inj h
          exact ⟨past, e, [], r', rfl, hmember.symm, horigin, fun name => rfl⟩
        · rw [hold] at h
          cases h
      · obtain ⟨hlt, -⟩ := List.getElem?_eq_some_iff.mp h
        rw [hput, List.length_set] at hlt
        omega
      · rw [hsame, hold] at h
        cases h

theorem nodup_names_standard (mode : EscapeMode) :
    (NameMap.names (FormatterRegistry.standard mode)).Nodup := by
  have hbuiltin : (NameMap.names FormatterRegistry.builtin).Nodup := by decide
  exact NameMap.nodup_names_put hbuiltin _ _

theorem nodup_names_after (past : List RegistryEvent) :
    ∀ r ∈ respond.after [] past, (NameMap.names r).Nodup := by
  induction past using List.reverseRecOn with
  | nil => exact List.forall_mem_nil _
  | append_singleton past e ih =>
    rw [Machine.after_concat]
    obtain ⟨r, horigin, hmade⟩ | ⟨i, name, f, r, -, hr, hput⟩ | ⟨hsame, -⟩ :=
      respond_cases (respond.after [] past) e
    · have hnew : (NameMap.names r).Nodup := by
        cases e with
        | empty =>
          obtain rfl := Option.some.inj horigin
          exact List.nodup_nil
        | standard mode =>
          obtain rfl := Option.some.inj horigin
          exact nodup_names_standard mode
        | copy i => exact ih r (List.mem_of_getElem? horigin)
        | register => cases horigin
      rw [hmade]
      exact List.forall_mem_append.mpr ⟨ih, List.forall_mem_singleton.mpr hnew⟩
    · have hold := ih r (List.mem_of_getElem? hr)
      intro r' hr'
      rw [hput] at hr'
      obtain hmem | rfl := List.mem_or_eq_of_mem_set hr'
      · exact ih r' hmem
      · exact NameMap.nodup_names_put hold name f
    · rw [hsame]
      exact ih

end Run

end RegistryFamily

/-- Registries by the places of their tables. The first table is that of the built-in formatters. -/
structure RegistryHeap where
  tables : List FormatterRegistry
  members : List Nat

namespace RegistryHeap

def start : RegistryHeap := ⟨[.builtin], []⟩

/-- A new registry with a new table, which begins as a copy of the given one. -/
def make (heap : RegistryHeap) (table : FormatterRegistry) : RegistryHeap :=
  ⟨heap.tables ++ [table], heap.members ++ [heap.tables.length]⟩

def put (heap : RegistryHeap) (place : Nat) (name : String) (f : Formatter) : RegistryHeap :=
  { heap with tables := heap.tables.modify place (NameMap.put name f) }

def respond : Machine RegistryHeap RegistryEvent RegistryAnswer
  | heap, .empty => (.made, heap.make [])
  | heap, .standard mode =>
    match heap.tables[0]? with
    | none => (.missing, heap)
    | some table =>
      let made := heap.make table
      (.made, made.put heap.tables.length defaultFormatterName mode.formatter.formatter)
  | heap, .copy member =>
    match heap.members[member]?.bind fun place => heap.tables[place]? with
    | none => (.missing, heap)
    | some table => (.made, heap.make table)
  | heap, .register member name candidate =>
    match heap.members[member]? with
    | none => (.missing, heap)
    | some place =>
      match heap.tables[place]? with
      | none => (.missing, heap)
      | some table =>
        match table.register name candidate with
        | .ok (table, log) => (.registered log, { heap with tables := heap.tables.set place table })
        | .error e => (.rejected e, heap)

end RegistryHeap

namespace RegistryFamily

section Placed

variable {rs : RegistryFamily} {member : Nat} {r : FormatterRegistry}

/-- The tables of the registries, one after the other behind that of the built-in formatters. -/
def placed (rs : RegistryFamily) : RegistryHeap :=
  ⟨.builtin :: rs, List.range' 1 rs.length⟩

theorem placed_concat (rs : RegistryFamily) (r : FormatterRegistry) :
    placed (rs ++ [r]) = rs.placed.make r := by
  rw [placed, placed, RegistryHeap.make, List.length_append, List.length_singleton,
    List.range'_1_concat, List.length_cons, Nat.add_comm 1]
  rfl

theorem getElem?_members_placed (h : rs[member]? = some r) :
    rs.placed.members[member]? = some (member + 1) := by
  obtain ⟨hlt, -⟩ := List.getElem?_eq_some_iff.mp h
  rw [placed, List.getElem?_range' hlt, Nat.one_mul, Nat.add_comm]

theorem getElem?_members_placed_none (h : rs[member]? = none) :
    rs.placed.members[member]? = none := by
  rw [List.getElem?_eq_none_iff] at h ⊢
  rwa [placed, List.length_range']

/-- The default formatter is registered in the new table, and not in the one that was copied. -/
theorem put_make (heap : RegistryHeap) (table : FormatterRegistry) (name : String)
    (f : Formatter) : (heap.make table).put heap.tables.length name f =
      heap.make (NameMap.put name f table) := by
  have htables : (heap.tables ++ [table]).modify heap.tables.length (NameMap.put name f) =
      heap.tables ++ [NameMap.put name f table] := by
    rw [modify_eq_set List.getElem?_concat_length, List.set_append_right _ _ le_rfl, Nat.sub_self,
      List.set_cons_zero]
  rw [RegistryHeap.put, RegistryHeap.make, RegistryHeap.make, htables]

theorem placed_set (rs : RegistryFamily) (member : Nat) (r : FormatterRegistry) :
    placed (rs.set member r) =
      { rs.placed with tables := rs.placed.tables.set (member + 1) r } := by
  rw [placed, List.length_set]
  rfl

/-- What is done through the places of the tables is done to the registries themselves. -/
theorem respond_placed (rs : RegistryFamily) (e : RegistryEvent) :
    RegistryHeap.respond rs.placed e = ((respond rs e).1, (respond rs e).2.placed) := by
  cases e with
  | empty => exact congrArg (RegistryAnswer.made, ·) (placed_concat rs []).symm
  | standard mode =>
    have hstandard : placed (rs ++ [.standard mode]) = (rs.placed.make .builtin).put
        rs.placed.tables.length defaultFormatterName mode.formatter.formatter := by
      rw [placed_concat, put_make]
      rfl
    exact congrArg (RegistryAnswer.made, ·) hstandard.symm
  | copy i =>
    cases hi : rs[i]? with
    | none =>
      rw [RegistryHeap.respond, getElem?_members_placed_none hi, respond, hi, Option.bind_none]
    | some r =>
      have htable : rs.placed.tables[i + 1]? = some r := hi
      rw [RegistryHeap.respond, getElem?_members_placed hi, respond, hi, Option.bind_some, htable]
      exact congrArg (RegistryAnswer.made, ·) (placed_concat rs r).symm
  | register i name candidate =>
    cases hi : rs[i]? with
    | none =>
      rw [RegistryHeap.respond, getElem?_members_placed_none hi, respond_missing hi]
    | some r =>
      have htable : rs.placed.tables[i + 1]? = some r := hi
      rw [RegistryHeap.respond, getElem?_members_placed hi, respond, hi]
      dsimp only
      rw [htable]
      cases candidate with
      | none => rfl
      | some f => exact congrArg (RegistryAnswer.registered _, ·) (placed_set rs i _).symm

end Placed

theorem after_placed (past : List RegistryEvent) :
    RegistryHeap.respond.after .start past = (respond.after [] past).placed ∧
      RegistryHeap.respond.answers .start past = respond.answers [] past := by
  have hstart : RegistryHeap.start = placed [] := rfl
  rw [hstart]
  exact Machine.run_view fun before e _ => respond_placed _ e

/-- What holds of a family after the events so far. -/
structure IsSound (past : List RegistryEvent) (rs : RegistryFamily) : Prop where
  comesFrom : ∀ member r, rs[member]? = some r → ComesFrom past member r
  names : ∀ r ∈ rs, (NameMap.sortedNames r).Pairwise (· < ·) ∧
    ∀ name, name ∈ NameMap.sortedNames r ↔ (NameMap.get? r name).isSome = true
  rejected : ∀ member r, rs[member]? = some r → ∀ name,
    respond rs (.register member name none) = (.rejected ⟨name⟩, rs)
  registered : ∀ member r, rs[member]? = some r → ∀ name f,
    (respond rs (.register member name (some f))).1 =
      .registered (if (r.get? name).isSome then [overwriteWarning name] else [])
  independent : ∀ member r, rs[member]? = some r → ∀ e,
    (∀ name candidate, e ≠ .register member name candidate) →
      (respond rs e).2[member]? = some r

/-- Families are sound after every history, and registries that refer to their tables answer as they
do. The table of the built-in formatters is what it was, so that every standard registry differs
from it in the default formatter only. -/
theorem isSound_after_events (past : List RegistryEvent) :
    IsSound past (respond.after [] past) ∧
    RegistryHeap.respond.answers .start past = respond.answers [] past ∧
    RegistryHeap.respond.after .start past = (respond.after [] past).placed ∧
    (RegistryHeap.respond.after .start past).tables[0]? = some .builtin ∧
    ∀ (mode : EscapeMode) (name : String), (FormatterRegistry.standard mode).get? name =
      if name = defaultFormatterName then some mode.formatter.formatter
      else FormatterRegistry.builtin.get? name := by
  obtain ⟨hplaced, hanswers⟩ := after_placed past
  refine ⟨?_, hanswers, hplaced, ?_, ?_⟩
  · refine ⟨comesFrom_after past, ?_, ?_, ?_, fun member r h e => getElem?_respond h⟩
    · intro r hr
      have hnodup := nodup_names_after past r hr
      exact ⟨NameMap.pairwise_sortedNames hnodup, fun name => NameMap.mem_sortedNames⟩
    · intro member r h name
      exact respond_register h name none
    · intro member r h name f
      rw [respond_register h]
  · rw [hplaced]
    rfl
  · intro mode name
    exact NameMap.get?_put _ _ _ _

example (f : Formatter) : (respond.after [] [.empty, .copy 0, .register 1 "x" (some f)]).map
    NameMap.names = [[], ["x"]] := rfl

end RegistryFamily

end TextTemplate
