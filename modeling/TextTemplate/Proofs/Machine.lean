import Mathlib

/-! Machines that answer one event after the other, and the histories that they can be given. Two
machines are alike if a view of the states of one shows the states of the other at every moment. -/

namespace TextTemplate

/-- The answer to an event, and the state after it. -/
abbrev Machine (σ ε α : Type) := σ → ε → α × σ

namespace Machine

variable {σ τ ε α : Type}

def after (m : Machine σ ε α) (s : σ) (events : List ε) : σ :=
  events.foldl (fun s e => (m s e).2) s

def answers (m : Machine σ ε α) : σ → List ε → List α
  | _, [] => []
  | s, e :: events => (m s e).1 :: m.answers (m s e).2 events

section Run

variable {m : Machine σ ε α} {s : σ} {events past : List ε} {e : ε}

theorem after_concat : m.after s (past ++ [e]) = (m (m.after s past) e).2 := by
  rw [after, List.foldl_append]
  rfl

theorem answers_concat :
    m.answers s (past ++ [e]) = m.answers s past ++ [(m (m.after s past) e).1] := by
  induction past generalizing s with
  | nil => rfl
  | cons first past ih =>
    rw [List.cons_append, answers, ih]
    rfl

end Run

end Machine

/-- Every event can happen after those before it. -/
def IsHistory {ε : Type} (allowed : List ε → ε → Prop) (events : List ε) : Prop :=
  ∀ past e, past ++ [e] <+: events → allowed past e

section IsHistory

variable {ε : Type} {allowed : List ε → ε → Prop} {events past : List ε} {e : ε}

theorem isHistory_nil : IsHistory allowed [] := by
  intro past e h
  have hnil := List.prefix_nil.mp h
  simp at hnil

theorem IsHistory.earlier (h : IsHistory allowed events) (hpast : past <+: events) :
    IsHistory allowed past :=
  fun before e hbefore => h before e (hbefore.trans hpast)

theorem isHistory_concat : IsHistory allowed (past ++ [e]) ↔
    IsHistory allowed past ∧ allowed past e := by
  constructor
  · intro h
    exact ⟨h.earlier (List.prefix_append past [e]), h past e List.prefix_rfl⟩
  · rintro ⟨hpast, he⟩ before e' hbefore
    obtain heq | hearlier := List.prefix_concat_iff.mp hbefore
    · obtain ⟨rfl, hlast⟩ := List.append_inj' heq rfl
      obtain rfl := List.singleton_inj.mp hlast
      exact he
    · exact hpast before e' hearlier

end IsHistory

/-- What a step does to the view of a state, it does to the view throughout a history. -/
theorem Machine.run_view {σ τ ε α : Type} {m : Machine σ ε α} {m' : Machine τ ε α} {view : τ → σ}
    {t : τ} {events : List ε}
    (h : ∀ past e, past ++ [e] <+: events →
      m (view (m'.after t past)) e =
        ((m' (m'.after t past) e).1, view (m' (m'.after t past) e).2)) :
    m.after (view t) events = view (m'.after t events) ∧
      m.answers (view t) events = m'.answers t events := by
  induction events using List.reverseRecOn with
  | nil => exact ⟨rfl, rfl⟩
  | append_singleton past e ih =>
    obtain ⟨hafter, hanswers⟩ := ih fun before e' hbefore =>
      h before e' (hbefore.trans (List.prefix_append past [e]))
    have hstep := h past e List.prefix_rfl
    rw [after_concat, answers_concat, hafter, hstep, hanswers, after_concat, answers_concat]
    exact ⟨rfl, rfl⟩

theorem modify_eq_set {α : Type} {as : List α} {i : Nat} {a : α} (h : as[i]? = some a)
    (g : α → α) : as.modify i g = as.set i (g a) := by
  obtain ⟨hlt, rfl⟩ := List.getElem?_eq_some_iff.mp h
  refine List.ext_getElem? fun j => ?_
  rw [List.getElem?_modify, List.getElem?_set]
  by_cases hij : i = j
  · subst hij
    simp [hlt]
  · simp [hij]

theorem getElem?_concat {α : Type} (as : List α) (a : α) (i : Nat) :
    (as ++ [a])[i]? = if i = as.length then some a else as[i]? := by
  obtain hlt | rfl | hgt := Nat.lt_trichotomy i as.length
  · rw [List.getElem?_append_left hlt, if_neg (Nat.ne_of_lt hlt)]
  · rw [List.getElem?_concat_length, if_pos rfl]
  · have hlength : (as ++ [a]).length ≤ i := by
      rw [List.length_append, List.length_singleton]
      omega
    rw [List.getElem?_eq_none hlength, if_neg (Nat.ne_of_gt hgt),
      List.getElem?_eq_none (Nat.le_of_lt hgt)]

end TextTemplate
