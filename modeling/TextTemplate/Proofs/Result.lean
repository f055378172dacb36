/-! Results that may be errors: what chains of steps and traversals come to. -/

namespace TextTemplate

section Chains

variable {ε α β : Type} {x : Except ε α} {f : α → Except ε β} {b : β} {e : ε}

theorem bind_eq_ok : x >>= f = .ok b ↔ ∃ a, x = .ok a ∧ f a = .ok b := by
  cases x <;> simp [bind, Except.bind]

theorem bind_eq_error : x >>= f = .error e ↔ x = .error e ∨ ∃ a, x = .ok a ∧ f a = .error e := by
  cases x <;> simp [bind, Except.bind]

theorem bind_pure_eq_error {g : α → β} :
    (x >>= fun a => pure (g a)) = .error e ↔ x = .error e := by
  refine bind_eq_error.trans (or_iff_left ?_)
  rintro ⟨a, -, h⟩
  cases h

theorem exists_of_map_eq_ok {g : α → β} (h : g <$> x = .ok b) : ∃ a, x = .ok a ∧ g a = b := by
  cases x with
  | ok a => exact ⟨a, rfl, Except.ok.inj h⟩
  | error e => cases h

end Chains

section FailsBy

variable {ε ε' α β γ : Type} {bad : ε → Prop}

/-- The result is an error, and one of the bad ones. -/
def FailsBy (bad : ε → Prop) (result : Except ε α) : Prop :=
  ∃ e, result = .error e ∧ bad e

@[simp] theorem not_failsBy_ok (a : α) : ¬ FailsBy bad (.ok a) := by
  rintro ⟨e, h, -⟩
  cases h

@[simp] theorem failsBy_error {e : ε} : FailsBy bad (.error e : Except ε α) ↔ bad e := by
  constructor
  · rintro ⟨e', h, he⟩
    cases h
    exact he
  · intro he
    exact ⟨e, rfl, he⟩

@[simp] theorem not_failsBy_pure (a : α) : ¬ FailsBy bad (pure a) :=
  not_failsBy_ok a

@[simp] theorem failsBy_throw {e : ε} : FailsBy bad (throw e : Except ε α) ↔ bad e :=
  failsBy_error

@[simp] theorem failsBy_ok_bind {a : α} {f : α → Except ε β} :
    FailsBy bad (Except.ok a >>= f) ↔ FailsBy bad (f a) := Iff.rfl

theorem failsBy_bind {result : Except ε α} {f : α → Except ε β} :
    FailsBy bad (result >>= f) ↔
      FailsBy bad result ∨ ∃ a, result = .ok a ∧ FailsBy bad (f a) := by
  cases result with
  | ok a => simp
  | error e =>
    have hbind : (Except.error e >>= f) = .error e := rfl
    simp [hbind]

@[simp] theorem failsBy_map {result : Except ε α} {f : α → β} :
    FailsBy bad (f <$> result) ↔ FailsBy bad result := by
  cases result <;> simp [Functor.map, Except.map]

theorem failsBy_bind_pure {result : Except ε α} {f : α → β} :
    FailsBy bad (result >>= fun a => pure (f a)) ↔ FailsBy bad result := by
  rw [bind_pure_comp, failsBy_map]

/-- Where every error is bad, it makes no difference which comes first. -/
theorem failsBy_both {result : Except ε α} {other : Except ε β} (f : α → β → γ) :
    FailsBy (fun _ => True) (result >>= fun a => other >>= fun b => pure (f a b)) ↔
      FailsBy (fun _ => True) result ∨ FailsBy (fun _ => True) other := by
  cases result with
  | ok a => rw [failsBy_ok_bind, failsBy_bind_pure, or_iff_right (not_failsBy_ok a)]
  | error e => simp [bind, Except.bind]

@[simp] theorem failsBy_mapError {bad : ε' → Prop} {result : Except ε α} {f : ε → ε'} :
    FailsBy bad (result.mapError f) ↔ FailsBy (fun e => bad (f e)) result := by
  cases result with
  | ok a => exact iff_of_false (not_failsBy_ok _) (not_failsBy_ok _)
  | error e =>
    have hmapped : (Except.error e : Except ε α).mapError f = .error (f e) := rfl
    simp [hmapped]

/-- A list fails by its first bad result, if all the results before that are good. -/
theorem failsBy_mapM {f : α → Except ε β} {as : List α} :
    FailsBy bad (as.mapM f) ↔
      ∃ before a behind, as = before ++ a :: behind ∧ (∀ a ∈ before, ∃ b, f a = .ok b) ∧
        FailsBy bad (f a) := by
  induction as with
  | nil => simp [pure, Except.pure]
  | cons a as ih =>
    rw [List.mapM_cons, failsBy_bind]
    constructor
    · rintro (hfails | ⟨b, hb, hrest⟩)
      · exact ⟨[], a, as, rfl, by simp, hfails⟩
      · rw [failsBy_bind, ih] at hrest
        rcases hrest with ⟨before, a', behind, rfl, hbefore, hfails⟩ | ⟨bs, -, hpure⟩
        · refine ⟨a :: before, a', behind, rfl, ?_, hfails⟩
          exact List.forall_mem_cons.mpr ⟨⟨b, hb⟩, hbefore⟩
        · exact absurd hpure (not_failsBy_ok _)
    · rintro ⟨before, a', behind, has, hbefore, hfails⟩
      cases before with
      | nil =>
        obtain ⟨rfl, rfl⟩ := List.cons.inj has
        exact .inl hfails
      | cons a'' before =>
        obtain ⟨rfl, rfl⟩ := List.cons.inj has
        obtain ⟨⟨b, hb⟩, hbefore⟩ := List.forall_mem_cons.mp hbefore
        refine .inr ⟨b, hb, ?_⟩
        rw [failsBy_bind, ih]
        exact .inl ⟨before, a', behind, rfl, hbefore, hfails⟩

/-- Where both parts can only fail by the same error, it makes no difference which one does. -/
theorem failsBy_bind_single {result : Except ε α} {f : α → Except ε β} {e : ε} {P Q : Prop}
    (h : ∀ bad, FailsBy bad result ↔ P ∧ bad e) (h' : ∀ a bad, FailsBy bad (f a) ↔ Q ∧ bad e)
    (bad : ε → Prop) : FailsBy bad (result >>= f) ↔ (P ∨ Q) ∧ bad e := by
  rw [failsBy_bind, h bad, or_and_right]
  simp only [h' _ bad]
  cases result with
  | ok a => simp
  | error e' =>
    have hP : P := ((h fun _ => True).mp (failsBy_error.mpr trivial)).1
    simp [hP]

/-- The result fails if there is a reason for it, and by one of the reasons. -/
structure FailsFor (reason : ε → Prop) (result : Except ε α) : Prop where
  reason_of_eq {e : ε} : result = .error e → reason e
  fails {e : ε} : reason e → ∃ e', result = .error e'

theorem failsFor_ok {reason : ε → Prop} (h : ∀ e, ¬ reason e) (a : α) :
    FailsFor reason (.ok a) where
  reason_of_eq := nofun
  fails {e} he := absurd he (h e)

theorem failsFor_self (result : Except ε α) : FailsFor (result = .error ·) result where
  reason_of_eq := id
  fails h := ⟨_, h⟩

theorem FailsFor.congr {reason reason' : ε → Prop} {result : Except ε α}
    (h : FailsFor reason result) (hreason : ∀ e, reason e ↔ reason' e) :
    FailsFor reason' result where
  reason_of_eq he := (hreason _).mp (h.reason_of_eq he)
  fails he := h.fails ((hreason _).mpr he)

/-- Which of two reasons comes first makes a difference for the error only. -/
theorem FailsFor.bind {reason reason' : ε → Prop} {result : Except ε α} {f : α → Except ε β}
    (h : FailsFor reason result) (h' : ∀ a, FailsFor reason' (f a)) :
    FailsFor (fun e => reason e ∨ reason' e) (result >>= f) := by
  cases result with
  | ok a =>
    refine ⟨fun he => .inr ((h' a).reason_of_eq he), ?_⟩
    rintro e (he | he)
    · obtain ⟨_, hfails⟩ := h.fails he
      cases hfails
    · exact (h' a).fails he
  | error e =>
    refine ⟨fun he => .inl (h.reason_of_eq ?_), fun _ => ⟨e, rfl⟩⟩
    exact congrArg Except.error (Except.error.inj he)

theorem FailsFor.map {reason : ε → Prop} {result : Except ε α} (h : FailsFor reason result)
    (f : α → β) : FailsFor reason (result >>= fun a => pure (f a)) :=
  (h.bind fun a => failsFor_ok (fun _ => not_false) (f a)).congr fun _ => or_iff_left not_false

theorem FailsFor.exists_ok_iff {reason : ε → Prop} {result : Except ε α}
    (h : FailsFor reason result) : (∃ a, result = .ok a) ↔ ∀ e, ¬ reason e := by
  cases result with
  | ok a => exact iff_of_true ⟨a, rfl⟩ fun e he => by cases (h.fails he).choose_spec
  | error e => exact iff_of_false nofun fun hnone => hnone e (h.reason_of_eq rfl)

theorem exists_ok_iff {result : Except ε α} :
    (∃ a, result = .ok a) ↔ ¬ FailsBy (fun _ => True) result := by
  cases result <;> simp

theorem exists_mapM_ok_iff {f : α → Except ε β} {as : List α} :
    (∃ bs, as.mapM f = .ok bs) ↔ ∀ a ∈ as, ∃ b, f a = .ok b := by
  induction as with
  | nil => simp [pure, Except.pure]
  | cons a as ih =>
    rw [List.mapM_cons, List.forall_mem_cons, ← ih]
    cases ha : f a with
    | error e => simp [bind, Except.bind]
    | ok b => cases has : as.mapM f <;> simp [bind, Except.bind, pure, Except.pure]

theorem exists_mapM_some_iff {f : α → Option β} {as : List α} :
    (∃ bs, as.mapM f = some bs) ↔ ∀ a ∈ as, ∃ b, f a = some b := by
  induction as with
  | nil => simp
  | cons a as ih =>
    rw [List.forall_mem_cons, ← ih]
    cases ha : f a with
    | none => simp [ha]
    | some b => cases has : as.mapM f <;> simp [ha, has]

end FailsBy

end TextTemplate
