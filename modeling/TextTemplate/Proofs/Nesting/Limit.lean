import TextTemplate.Proofs.Nesting.Pending

/-! The limit of the nesting. It only cuts the parsing off, at the first head that would open a
block while as many as the limit allows are open. -/

namespace TextTemplate

namespace Attempt

variable {α β : Type}

/-- The first attempt is the second, unless the limit cuts it off. -/
def SameWithin (limit : Int) (x y : Attempt α) : Prop :=
  x = y ∨ ∃ position, x = .error (.tooDeep limit position)

theorem SameWithin.bind {limit : Int} {x y : Attempt α} {f g : α → Attempt β}
    (h : SameWithin limit x y) (hf : ∀ a, x = .ok a → SameWithin limit (f a) (g a)) :
    SameWithin limit (x >>= f) (y >>= g) := by
  rcases h with rfl | ⟨position, rfl⟩
  · cases x with
    | ok a => exact hf a rfl
    | error e => exact .inl rfl
  · exact .inr ⟨position, rfl⟩

theorem FailsOnly.ne_tooDeep {x : Attempt α} (hx : FailsOnly (!·.isTooDeep) x) {e : CompileError}
    (he : e.isTooDeep) : x ≠ .error e := by
  intro h
  have hnot := hx e h
  simp [he] at hnot

theorem notTooDeep_of_blamesToken {x : Attempt α} (hx : FailsOnly (·.blamesToken) x) :
    FailsOnly (!·.isTooDeep) x :=
  hx.mono fun _ => CompileError.not_isTooDeep_of_blamesToken

end Attempt

open Attempt

namespace Assembly

open TokenStream (next prepend)

section Cut

variable {limit limit' : Int} (h : limit ≤ limit')

include h

end Cut

end Assembly

namespace TokenStream

theorem notTooDeep_readLiterals (s : TokenStream) : FailsOnly (!·.isTooDeep) s.readLiterals := by
  fun_induction readLiterals s with
  | case1 t rest hkind ih => exact ih.bind fun _ => failsOnly_ok _
  | case2 t rest hkind ih =>
    cases readInteger t.value with
    | error fault => exact failsOnly_error rfl
    | ok n => exact ih.bind fun _ => failsOnly_ok _
  | case3 => exact failsOnly_ok _
  | case4 => exact failsOnly_ok _
  | case5 => exact failsOnly_error rfl

theorem notTooDeep_readFormatter (s : TokenStream) : FailsOnly (!·.isTooDeep) s.readFormatter := by
  refine (notTooDeep_of_blamesToken (blamesToken_accept s _)).bind fun given => ?_
  dsimp only
  split
  · refine (notTooDeep_of_blamesToken (blamesToken_expect _ _ _)).bind fun name => ?_
    exact (notTooDeep_readLiterals _).bind fun _ => failsOnly_ok _
  · exact failsOnly_ok _

theorem notTooDeep_readValue (s : TokenStream) : FailsOnly (!·.isTooDeep) s.readValue := by
  refine (notTooDeep_of_blamesToken (blamesToken_readPath s)).bind fun path => ?_
  exact (notTooDeep_readFormatter _).bind fun _ => failsOnly_ok _

theorem notTooDeep_readDirective (s : TokenStream) : FailsOnly (!·.isTooDeep) s.readDirective := by
  unfold readDirective
  split
  · split
    · exact failsOnly_ok _
    · exact notTooDeep_of_blamesToken (blamesToken_readIfHead _)
    · exact notTooDeep_of_blamesToken (blamesToken_readForHead _)
    · exact notTooDeep_of_blamesToken (blamesToken_readWithHead _)
    · exact notTooDeep_of_blamesToken (blamesToken_readCall _)
    · exact failsOnly_error rfl
    · exact notTooDeep_readValue _
  · exact notTooDeep_readValue _

end TokenStream

namespace Assembly

open TokenStream (next prepend)

variable {limit : Int} {a : Assembly} {e : CompileError}

theorem openBlock_of_length_le (h : limit.toNat ≤ a.pending.length) (opener : Position)
    (state : BlockState) (closer : Token) :
    a.openBlock limit opener state closer = .error (.tooDeep limit opener) := by
  rw [length_pending] at h
  exact if_pos (by omega)

theorem of_openBlock_eq_error {opener : Position} {state : BlockState} {closer : Token}
    (h : a.openBlock limit opener state closer = .error e) :
    limit.toNat ≤ a.pending.length ∧ e = .tooDeep limit opener := by
  unfold openBlock at h
  split at h
  · obtain rfl := Except.error.inj h
    rw [length_pending]
    exact ⟨by omega, rfl⟩
  · cases h

theorem of_stepDirective_eq_tooDeep (he : e.isTooDeep) (opener : Terminal .opener)
    {s : TokenStream} (h : a.stepDirective limit opener.1.position s = .error e) :
    limit.toNat ≤ a.pending.length ∧
      ∃ (head : Tag HeadPhrase) (r : TokenStream),
        next opener.1 s = r.prepend (head.tokens HeadPhrase.tokens) ∧
        e = .tooDeep limit head.opener.1.position := by
  rcases bind_eq_error.mp h with hread | ⟨⟨directive, s₁⟩, hread, h⟩
  · exact absurd hread ((TokenStream.notTooDeep_readDirective s).ne_tooDeep he)
  rcases bind_eq_error.mp h with hcloser | ⟨⟨closer, s₂⟩, hcloser, h⟩
  · have hblames := TokenStream.blamesToken_expect s₁ .closer .directiveCloser
    exact absurd hcloser ((notTooDeep_of_blamesToken hblames).ne_tooDeep he)
  rcases bind_eq_error.mp h with hadd | ⟨a', -, hpure⟩
  · obtain ⟨hkind, rfl⟩ := TokenStream.eq_next_of_expect hcloser
    obtain ⟨q, rfl, rfl⟩ | ⟨q, rfl, rfl⟩ := TokenStream.exists_piece_of_readDirective hread
    · obtain ⟨node, hnode⟩ := exists_addDirective_leaf limit a opener.1.position q closer
      cases hnode.symm.trans hadd
    · rw [addDirective_head] at hadd
      obtain ⟨hlength, rfl⟩ := of_openBlock_eq_error hadd
      let head : Tag HeadPhrase := ⟨opener, q, ⟨closer, hkind⟩⟩
      exact ⟨hlength, head, s₂, (prepend_lone_tag HeadPhrase.tokens head s₂).symm, rfl⟩
  · cases hpure

/-- A step is refused for the limit exactly at a head that is read to its closer. -/
theorem step_eq_tooDeep_iff {t : Token} {s : TokenStream} :
    a.step limit t s = .error e ∧ e.isTooDeep ↔
      limit.toNat ≤ a.pending.length ∧
        ∃ (head : Tag HeadPhrase) (r : TokenStream),
          next t s = r.prepend (head.tokens HeadPhrase.tokens) ∧
          e = .tooDeep limit head.opener.1.position := by
  constructor
  · rintro ⟨h, he⟩
    unfold step at h
    split at h
    · cases h
    · rename_i hopener
      cases s with
      | next u s =>
        rw [stepOpener] at h
        split at h
        · rename_i word hword
          have hblames := blamesToken_addCloser a word u s
          exact absurd h ((notTooDeep_of_blamesToken hblames).ne_tooDeep he)
        · exact of_stepDirective_eq_tooDeep he ⟨t, hopener⟩ h
      | ended | broken => exact of_stepDirective_eq_tooDeep he ⟨t, hopener⟩ h
    · obtain rfl := Except.error.inj h
      cases he
  · rintro ⟨hlength, head, r, htokens, rfl⟩
    refine ⟨?_, CompileError.isTooDeep_tooDeep _ _⟩
    rw [prepend_lone_tag] at htokens
    obtain ⟨rfl, rfl⟩ := (TokenStream.next.injEq ..).mp htokens
    have hread := TokenStream.readDirective_head (s := r) head.inside head.closer
    rw [step_of_readDirective limit a head.opener hread, addDirective_head,
      openBlock_of_length_le hlength]
    rfl

/-- The assembling is cut off where it gets to a head with as many blocks open as there may be. -/
theorem run_eq_tooDeep_iff {s : TokenStream} :
    a.run limit s = .error e ∧ e.isTooDeep ↔
      ∃ (a' : Assembly) (head : Tag HeadPhrase) (r : TokenStream),
        Reaches limit a s a' (r.prepend (head.tokens HeadPhrase.tokens)) ∧
        limit.toNat ≤ a'.pending.length ∧ e = .tooDeep limit head.opener.1.position := by
  constructor
  · rintro ⟨h, he⟩
    obtain ⟨a', r, hreaches, ⟨t, r', rfl, hstep⟩ | ⟨position, rfl, hfinish⟩ | ⟨fault, -, rfl⟩⟩ :=
      exists_reaches_of_run h
    · obtain ⟨hlength, head, r, htokens, rfl⟩ := step_eq_tooDeep_iff.mp ⟨hstep, he⟩
      exact ⟨a', head, r, htokens ▸ hreaches, hlength, rfl⟩
    · exact absurd hfinish ((notTooDeep_of_blamesToken (blamesToken_finish a')).ne_tooDeep he)
    · cases he
  · rintro ⟨a', head, r, hreaches, hlength, rfl⟩
    obtain ⟨hstep, he⟩ := step_eq_tooDeep_iff.mpr ⟨hlength, head, r,
      (prepend_lone_tag HeadPhrase.tokens head r).symm, rfl⟩
    refine ⟨?_, he⟩
    rw [hreaches.run_eq, prepend_lone_tag, run_next, hstep]
    rfl

end Assembly

namespace Template

end Template

end TextTemplate
