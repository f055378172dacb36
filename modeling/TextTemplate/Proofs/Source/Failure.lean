import TextTemplate.Proofs.Decimal
import TextTemplate.Proofs.Source.Compiled

/-! How compiling fails. Only the numbers that are given to a formatter are ever read as integers,
so nothing but such a number leads to an error that is neither the scanner's nor the parser's. -/

namespace TextTemplate

namespace CompileError

def isInteger : CompileError → Bool
  | .integer _ => true
  | _ => false

def isTooDeep : CompileError → Bool
  | .parse ⟨.tooDeep _, _⟩ | .limit _ => true
  | _ => false

section TooDeep

variable (limit : Int) (opener : Position)

theorem not_isInteger_tooDeep : !(tooDeep limit opener).isInteger := by
  unfold tooDeep
  split <;> rfl

theorem isTooDeep_tooDeep : (tooDeep limit opener).isTooDeep := by
  unfold tooDeep
  split <;> rfl

theorem exists_tooDeep_eq_limit_iff :
    (∃ fault, tooDeep limit opener = .limit fault) ↔ IsLong limit := by
  unfold tooDeep
  by_cases hlong : IsLong limit
  · simp [writeInteger_of_isLong hlong, hlong]
  · simp [writeInteger_of_not_isLong hlong, hlong]

end TooDeep

/-- The scan is at fault or a token that has no place where it stands. -/
def blamesToken (e : CompileError) : Bool := !e.isInteger && !e.isTooDeep

theorem not_isInteger_of_blamesToken {e : CompileError} (h : e.blamesToken) : !e.isInteger :=
  (Bool.and_eq_true_iff.mp h).1

theorem not_isTooDeep_of_blamesToken {e : CompileError} (h : e.blamesToken) : !e.isTooDeep :=
  (Bool.and_eq_true_iff.mp h).2

end CompileError

namespace Attempt

variable {α β : Type} {P : CompileError → Prop}

def FailsOnly (P : CompileError → Prop) (x : Attempt α) : Prop := ∀ e, x = .error e → P e

def Documented (x : Attempt α) : Prop :=
  ∀ fault, x ≠ .error (.integer fault)

theorem failsOnly_ok (a : α) : FailsOnly P (.ok a) := by
  intro e h
  cases h

theorem failsOnly_error {e : CompileError} (h : P e) : FailsOnly P (.error e : Attempt α) := by
  intro e' h'
  exact Except.error.inj h' ▸ h

theorem FailsOnly.bind {x : Attempt α} {f : α → Attempt β} (hx : FailsOnly P x)
    (hf : ∀ a, FailsOnly P (f a)) : FailsOnly P (x >>= f) := by
  cases x with
  | ok a => exact hf a
  | error e => exact failsOnly_error (hx e rfl)

theorem FailsOnly.mono {Q : CompileError → Prop} {x : Attempt α} (hx : FailsOnly P x)
    (h : ∀ e, P e → Q e) : FailsOnly Q x :=
  fun e he => h e (hx e he)

theorem documented_of_failsOnly {x : Attempt α} (hx : FailsOnly (!·.isInteger) x) :
    Documented x := by
  intro fault h
  cases hx _ h

theorem documented_of_blamesToken {x : Attempt α} (hx : FailsOnly (·.blamesToken) x) :
    Documented x :=
  documented_of_failsOnly (hx.mono fun _ => CompileError.not_isInteger_of_blamesToken)

theorem mapError_error {ε : Type} (f : ε → CompileError) (e : ε) :
    Except.mapError f (.error e) = (.error (f e) : Attempt α) := rfl

/-- What follows a documented attempt fails on the integer, if the whole does. -/
theorem Documented.bind_eq_integer {x : Attempt α} {f : α → Attempt β} (hx : Documented x)
    {fault : IntegerFault} (h : x >>= f = .error (.integer fault)) :
    ∃ a, x = .ok a ∧ f a = .error (.integer fault) := by
  rcases bind_eq_error.mp h with herror | hok
  · exact absurd herror (hx fault)
  · exact hok

end Attempt

open Attempt

namespace TokenStream

theorem blamesToken_refuse {α : Type} (s : TokenStream) (expected : Expected) :
    FailsOnly (·.blamesToken) (s.refuse expected : Attempt (α × TokenStream)) := by
  cases s with
  | next | ended | broken => exact failsOnly_error rfl

theorem blamesToken_expect (s : TokenStream) (kind : TokenKind) (expected : Expected) :
    FailsOnly (·.blamesToken) (s.expect kind expected) := by
  cases s with
  | next t s =>
    rw [expect]
    split
    · exact failsOnly_ok _
    · exact failsOnly_error rfl
  | ended position => exact blamesToken_refuse (ended position) expected
  | broken e => exact blamesToken_refuse (broken e) expected

theorem blamesToken_accept (s : TokenStream) (kind : TokenKind) :
    FailsOnly (·.blamesToken) (s.accept kind) := by
  cases s with
  | next t s =>
    rw [accept]
    split
    · exact failsOnly_ok _
    · exact failsOnly_ok _
  | ended position => exact failsOnly_ok _
  | broken e => exact failsOnly_error rfl

theorem blamesToken_readSegments (s : TokenStream) :
    FailsOnly (·.blamesToken) s.readSegments := by
  fun_induction readSegments s with
  | case1 dot t rest hdot ht ih => exact ih.bind fun _ => failsOnly_ok _
  | case2 => exact failsOnly_error rfl
  | case3 => exact failsOnly_ok _
  | case4 => exact blamesToken_refuse _ _
  | case5 => exact failsOnly_ok _
  | case6 => exact failsOnly_ok _
  | case7 => exact failsOnly_error rfl

theorem blamesToken_readPath (s : TokenStream) : FailsOnly (·.blamesToken) s.readPath := by
  unfold readPath
  split
  · split
    · exact (blamesToken_readSegments _).bind fun _ => failsOnly_ok _
    · exact (blamesToken_readSegments _).bind fun _ => failsOnly_ok _
    · exact failsOnly_error rfl
    · exact failsOnly_error rfl
  · exact blamesToken_refuse _ _

theorem blamesToken_readNames (s : TokenStream) : FailsOnly (·.blamesToken) s.readNames := by
  fun_induction readNames s with
  | case1 dot t rest hdot ht ih => exact ih.bind fun _ => failsOnly_ok _
  | case2 => exact failsOnly_error rfl
  | case3 => exact failsOnly_ok _
  | case4 => exact blamesToken_refuse _ _
  | case5 => exact failsOnly_ok _
  | case6 => exact failsOnly_ok _
  | case7 => exact failsOnly_error rfl

theorem blamesToken_readTemplateName (s : TokenStream) :
    FailsOnly (·.blamesToken) s.readTemplateName := by
  unfold readTemplateName
  split
  · split
    · exact failsOnly_ok _
    · exact (blamesToken_readNames _).bind fun _ => failsOnly_ok _
    · exact failsOnly_error rfl
  · exact blamesToken_refuse _ _

theorem blamesToken_readRoot (s : TokenStream) : FailsOnly (·.blamesToken) s.readRoot := by
  refine (blamesToken_accept s _).bind fun given => ?_
  dsimp only
  split
  · exact (blamesToken_readPath _).bind fun _ => failsOnly_ok _
  · exact failsOnly_ok _

theorem blamesToken_readArgument (taken : List String) (s : TokenStream) :
    FailsOnly (·.blamesToken) (s.readArgument taken) := by
  refine (blamesToken_expect s _ _).bind fun key => ?_
  dsimp only
  split
  · exact failsOnly_error rfl
  · refine (blamesToken_expect _ _ _).bind fun equals => ?_
    exact (blamesToken_readPath _).bind fun _ => failsOnly_ok _

theorem blamesToken_readArguments (taken : List String) (s : TokenStream) :
    FailsOnly (·.blamesToken) (s.readArguments taken) := by
  fun_induction readArguments taken s with
  | case1 taken s e hcomma => exact failsOnly_error (blamesToken_accept s _ e hcomma)
  | case2 => exact failsOnly_ok _
  | case3 taken s s' hcomma e hargument =>
    exact failsOnly_error (blamesToken_readArgument taken s' e hargument)
  | case4 taken s s' hcomma argument s'' hargument ih => exact ih.bind fun _ => failsOnly_ok _

theorem blamesToken_readCall (s : TokenStream) : FailsOnly (·.blamesToken) s.readCall := by
  refine (blamesToken_readTemplateName s).bind fun name => ?_
  refine (blamesToken_readRoot _).bind fun root => ?_
  exact (blamesToken_readArguments _ _).bind fun _ => failsOnly_ok _

theorem blamesToken_readIfHead (s : TokenStream) : FailsOnly (·.blamesToken) s.readIfHead :=
  (blamesToken_readPath s).bind fun _ => failsOnly_ok _

theorem blamesToken_readForHead (s : TokenStream) : FailsOnly (·.blamesToken) s.readForHead := by
  refine (blamesToken_expect s _ _).bind fun item => ?_
  refine FailsOnly.bind ?_ fun index => ?_
  · refine (blamesToken_accept _ _).bind fun given => ?_
    dsimp only
    split
    · exact (blamesToken_expect _ _ _).bind fun _ => failsOnly_ok _
    · exact failsOnly_ok _
  · refine (blamesToken_expect _ _ _).bind fun word => ?_
    exact (blamesToken_readPath _).bind fun _ => failsOnly_ok _

theorem blamesToken_readWithHead (s : TokenStream) : FailsOnly (·.blamesToken) s.readWithHead := by
  refine (blamesToken_readPath s).bind fun source => ?_
  refine (blamesToken_expect _ _ _).bind fun word => ?_
  exact (blamesToken_expect _ _ _).bind fun _ => failsOnly_ok _

/-- The stream begins with a value and its formatter, to which one more number is given that
cannot be read. -/
def GivesUnreadable (s : TokenStream) (fault : IntegerFault) : Prop :=
  ∃ (p : ValuePhrase) (t : Terminal .integer) (rest : TokenStream),
    p.formatter.isSome = true ∧ s = (next t.1 rest).prepend p.tokens ∧
      readInteger t.1.value = .error fault

theorem exists_integer_of_readLiterals {s : TokenStream} (hdecimal : s.Decimal)
    {fault : IntegerFault} (h : s.readLiterals = .error (.integer fault)) :
    ∃ (literals : List LiteralToken) (t : Terminal .integer) (rest : TokenStream),
      s = (next t.1 rest).prepend (LiteralToken.tokens literals) ∧
        readInteger t.1.value = .error fault := by
  fun_induction readLiterals s with
  | case1 t rest hkind ih =>
    rcases bind_eq_error.mp h with herror | ⟨result, -, hresult⟩
    · obtain ⟨literals, u, rest', rfl, hread⟩ := ih hdecimal.tail herror
      exact ⟨⟨t, .inl hkind⟩ :: literals, u, rest', rfl, hread⟩
    · cases hresult
  | case2 t rest hkind ih =>
    cases hread : readInteger t.value with
    | error fault' =>
      rw [hread] at h
      cases h
      exact ⟨[], ⟨t, hkind⟩, rest, rfl, hread⟩
    | ok n =>
      have ht := (decimal_next.mp hdecimal).1 hkind n hread
      rw [hread, mapError_ok, ok_bind] at h
      rcases bind_eq_error.mp h with herror | ⟨result, -, hresult⟩
      · obtain ⟨literals, u, rest', rfl, hread'⟩ := ih hdecimal.tail herror
        exact ⟨⟨t, .inr ⟨hkind, ht⟩⟩ :: literals, u, rest', rfl, hread'⟩
      · cases hresult
  | case3 => cases h
  | case4 => cases h
  | case5 => cases h

theorem readLiterals_of_unreadable (literals : List LiteralToken) {t : Terminal .integer}
    (rest : TokenStream) {fault : IntegerFault} (h : readInteger t.1.value = .error fault) :
    ((next t.1 rest).prepend (LiteralToken.tokens literals)).readLiterals =
      .error (.integer fault) := by
  induction literals with
  | nil => simp [LiteralToken.tokens, readLiterals, t.2, h, mapError_error]
  | cons literal literals ih =>
    have htokens : LiteralToken.tokens (literal :: literals) =
        literal.1 :: LiteralToken.tokens literals := rfl
    rw [htokens, prepend_cons, readLiterals]
    rcases literal.2 with hkind | ⟨hkind, hdecimal⟩
    · simp [hkind, ih]
    · simp [hkind, readInteger_decimal hdecimal, ih]

theorem givesUnreadable_of_readValue {s : TokenStream} (hdecimal : s.Decimal)
    {fault : IntegerFault} (h : s.readValue = .error (.integer fault)) :
    s.GivesUnreadable fault := by
  have hdocumented := documented_of_blamesToken (blamesToken_readPath s)
  obtain ⟨⟨path, s₁⟩, hpath, h⟩ := hdocumented.bind_eq_integer h
  obtain ⟨p, rfl, rfl⟩ := exists_path_of_readPath hpath
  rcases bind_eq_error.mp h with hformatter | ⟨result, -, hresult⟩
  · obtain ⟨⟨given, s₂⟩, haccept, hgiven⟩ :=
      (documented_of_blamesToken (blamesToken_accept s₁ .pipe)).bind_eq_integer hformatter
    obtain ⟨pipe, rfl, rfl⟩ | ⟨rfl, rfl⟩ := eq_of_accept haccept
    · obtain ⟨⟨name, s₃⟩, hname, harguments⟩ :=
        (documented_of_blamesToken (blamesToken_expect s₂ _ _)).bind_eq_integer hgiven
      obtain ⟨hkind, rfl⟩ := eq_next_of_expect hname
      rcases bind_eq_error.mp harguments with hliterals | ⟨result, -, hresult⟩
      · obtain ⟨literals, t, rest, rfl, hread⟩ :=
          exists_integer_of_readLiterals hdecimal.of_prepend.tail.tail hliterals
        refine ⟨⟨p, some ⟨pipe, ⟨name, hkind⟩, literals⟩⟩, t, rest, rfl, ?_, hread⟩
        rw [ValuePhrase.tokens, prepend_append]
        rfl
      · cases hresult
    · cases hgiven
  · cases hresult

theorem readValue_of_givesUnreadable {s : TokenStream} {fault : IntegerFault}
    (h : s.GivesUnreadable fault) : s.readValue = .error (.integer fault) := by
  obtain ⟨⟨path, formatter⟩, t, rest, hsome, rfl, hread⟩ := h
  obtain ⟨p, rfl⟩ := Option.isSome_iff_exists.mp hsome
  have hlacks : (((next t.1 rest).prepend p.tokens)).Lacks [.dot] := by
    simp [FormatterPhrase.tokens, p.pipe.2]
  have hpath := readPath_prepend path hlacks
  have hliterals := readLiterals_of_unreadable p.arguments rest hread
  simp only [ValuePhrase.tokens, Option.elim_some, prepend_append, readValue, hpath, ok_bind]
  simp [readFormatter, FormatterPhrase.tokens, hliterals]

theorem readDirective_eq_integer_iff {s : TokenStream} (hdecimal : s.Decimal)
    {fault : IntegerFault} :
    s.readDirective = .error (.integer fault) ↔ s.GivesUnreadable fault := by
  constructor
  · intro h
    unfold readDirective at h
    split at h
    · split at h
      · cases h
      · exact absurd h (documented_of_blamesToken (blamesToken_readIfHead _) fault)
      · exact absurd h (documented_of_blamesToken (blamesToken_readForHead _) fault)
      · exact absurd h (documented_of_blamesToken (blamesToken_readWithHead _) fault)
      · exact absurd h (documented_of_blamesToken (blamesToken_readCall _) fault)
      · cases h
      · exact givesUnreadable_of_readValue hdecimal h
    · exact givesUnreadable_of_readValue hdecimal h
  · intro h
    have hvalue := readValue_of_givesUnreadable h
    obtain ⟨p, t, rest, -, rfl, -⟩ := h
    rw [ValuePhrase.tokens] at hvalue ⊢
    rw [readDirective_path, hvalue]

end TokenStream

namespace Assembly

open TokenStream (next GivesUnreadable)

theorem notInteger_addDirective (limit : Int) (a : Assembly) (opener : Position) (d : Directive)
    (closer : Token) : FailsOnly (!·.isInteger) (a.addDirective limit opener d closer) := by
  have hopen (state : BlockState) :
      FailsOnly (!·.isInteger) (a.openBlock limit opener state closer) := by
    unfold openBlock
    split
    · exact failsOnly_error (CompileError.not_isInteger_tooDeep limit opener)
    · exact failsOnly_ok _
  cases d with
  | comment | value | call => exact failsOnly_ok _
  | ifHead | forHead | withHead => exact hopen _

theorem blamesToken_addCloser (a : Assembly) (word : Keyword) (t : Token) (s : TokenStream) :
    FailsOnly (·.blamesToken) (a.addCloser word t s) := by
  have hmisplaced : (a.misplaced word t).blamesToken := by
    unfold misplaced
    split
    · split
      · rfl
      · rfl
    · rfl
  unfold addCloser
  split
  · exact failsOnly_error hmisplaced
  · split
    · refine (TokenStream.blamesToken_accept s _).bind fun chained => ?_
      dsimp only
      split
      · refine (TokenStream.blamesToken_readPath _).bind fun condition => ?_
        exact (TokenStream.blamesToken_expect _ _ _).bind fun _ => failsOnly_ok _
      · exact (TokenStream.blamesToken_expect _ _ _).bind fun _ => failsOnly_ok _
    · split
      · exact (TokenStream.blamesToken_expect s _ _).bind fun _ => failsOnly_ok _
      · exact failsOnly_error hmisplaced

theorem blamesToken_finish (a : Assembly) : FailsOnly (·.blamesToken) a.finish := by
  unfold finish
  split
  · exact failsOnly_ok _
  · exact failsOnly_error rfl

/-- The only step that fails on an integer takes an opener in front of such a value. -/
theorem step_eq_integer_iff {limit : Int} {a : Assembly} {t : Token} {s : TokenStream}
    (hdecimal : s.Decimal) {fault : IntegerFault} :
    a.step limit t s = .error (.integer fault) ↔ t.kind = .opener ∧ s.GivesUnreadable fault := by
  have hdirective : a.stepDirective limit t.position s = .error (.integer fault) ↔
      s.GivesUnreadable fault := by
    rw [← TokenStream.readDirective_eq_integer_iff hdecimal]
    -- Behind the directive only a closer is read, and then the tree is extended.
    refine bind_eq_error.trans (or_iff_left ?_)
    rintro ⟨⟨d, s'⟩, -, h⟩
    have hcloser := (TokenStream.blamesToken_expect s' .closer .directiveCloser).mono
      fun _ => CompileError.not_isInteger_of_blamesToken
    refine documented_of_failsOnly (hcloser.bind fun closer => ?_) fault h
    exact (notInteger_addDirective limit a t.position d closer.1).bind fun _ => failsOnly_ok _
  constructor
  · intro h
    unfold step at h
    split at h
    · cases h
    · rename_i hopener
      refine ⟨hopener, hdirective.mp ?_⟩
      cases s with
      | next t' s' =>
        rw [stepOpener] at h
        split at h
        · exact absurd h (documented_of_blamesToken (blamesToken_addCloser a _ t' s') fault)
        · exact h
      | ended | broken => exact h
    · cases h
  · rintro ⟨hopener, hunreadable⟩
    have hstep := hdirective.mpr hunreadable
    obtain ⟨p, t', rest, -, rfl, -⟩ := hunreadable
    have hword : closingWord? p.path.head.1.kind = none := by
      rcases p.path.head.2 with hhead | hhead <;> simp [hhead, closingWord?]
    rw [step, hopener]
    simp only [ValuePhrase.tokens, PathPhrase.tokens, List.cons_append, TokenStream.prepend_cons,
      stepOpener, hword] at hstep ⊢
    exact hstep

/-- Steps without an error lead from one assembly, and the tokens in front of it, to another. -/
inductive Reaches (limit : Int) : Assembly → TokenStream → Assembly → TokenStream → Prop
  | refl {a : Assembly} {s : TokenStream} : Reaches limit a s a s
  | step {a a' a'' : Assembly} {t : Token} {s s' s'' : TokenStream}
      (hstep : a.step limit t s = .ok (a', s')) (hrest : Reaches limit a' s' a'' s'') :
      Reaches limit a (next t s) a'' s''

/-- A step only drops tokens. -/
theorem tokens_subset_of_step {limit : Int} {a a' : Assembly} {t : Token} {s s' : TokenStream}
    (hdecimal : s.Decimal) (h : a.step limit t s = .ok (a', s')) : s'.tokens ⊆ s.tokens := by
  unfold step at h
  split at h
  · obtain ⟨-, rfl⟩ := Prod.mk.inj (Except.ok.inj h)
    exact List.Subset.refl _
  · obtain ⟨u, word, r, rfl, -, hword⟩ | hdirective := cases_of_stepOpener h
    · obtain ⟨b, outer, -, ⟨-, hclose⟩ | ⟨_, _, _, -, -, hcontinue⟩⟩ := cases_of_addCloser hword
      · obtain ⟨closer, rfl, -⟩ := exists_closer_of_closeBlock hclose
        simp [TokenStream.tokens]
      · obtain ⟨closer, ⟨p, rfl, -⟩ | ⟨rfl, -⟩⟩ := cases_of_continueIf hcontinue
        · intro v hv
          simp [TokenStream.tokens, TokenStream.tokens_prepend, hv]
        · simp [TokenStream.tokens]
    · obtain ⟨p, closer, rfl, -⟩ := exists_directive_of_stepDirective hdecimal hdirective
      intro v hv
      simp [TokenStream.tokens, TokenStream.tokens_prepend, hv]
  · cases h

theorem Reaches.tokens_subset {limit : Int} {a a' : Assembly} {s s' : TokenStream}
    (h : Reaches limit a s a' s') (hdecimal : s.Decimal) : s'.tokens ⊆ s.tokens := by
  induction h with
  | refl => exact List.Subset.refl _
  | step hstep hrest ih =>
    have hsubset := tokens_subset_of_step hdecimal.tail hstep
    have hlast := ih fun t ht => hdecimal.tail t (hsubset ht)
    exact List.Subset.trans hlast (List.Subset.trans hsubset (List.subset_cons_self _ _))

theorem Reaches.decimal {limit : Int} {a a' : Assembly} {s s' : TokenStream}
    (h : Reaches limit a s a' s') (hdecimal : s.Decimal) : s'.Decimal :=
  fun t ht => hdecimal t (h.tokens_subset hdecimal ht)

theorem Reaches.run_eq {limit : Int} {a a' : Assembly} {s s' : TokenStream}
    (h : Reaches limit a s a' s') : a.run limit s = a'.run limit s' := by
  induction h with
  | refl => rfl
  | step hstep hrest ih => rw [run_next, hstep, ok_bind, ih]

/-- A run that fails gets to a step that fails, or to the end of the tokens and fails there. -/
theorem exists_reaches_of_run {limit : Int} {a : Assembly} {s : TokenStream} {e : CompileError}
    (h : a.run limit s = .error e) :
    ∃ a' r, Reaches limit a s a' r ∧
      ((∃ t r', r = next t r' ∧ a'.step limit t r' = .error e) ∨
        (∃ p, r = .ended p ∧ a'.finish = .error e) ∨
        ∃ fault, r = .broken fault ∧ e = .lex fault) := by
  -- The run goes on with fewer tokens after every step.
  induction hn : s.size using Nat.strongRecOn generalizing a s with
  | ind n ih =>
    subst hn
    cases s with
    | ended position =>
      rw [run] at h
      exact ⟨a, _, .refl, .inr (.inl ⟨position, rfl, h⟩)⟩
    | broken fault =>
      rw [run] at h
      exact ⟨a, _, .refl, .inr (.inr ⟨fault, rfl, (Except.error.inj h).symm⟩)⟩
    | next t s =>
      rw [run_next] at h
      rcases bind_eq_error.mp h with hstep | ⟨⟨a', s'⟩, hstep, hrun⟩
      · exact ⟨a, _, .refl, .inl ⟨t, s, rfl, hstep⟩⟩
      · have hsize := size_le_of_step hstep
        obtain ⟨a'', r, hreaches, hstop⟩ :=
          ih s'.size (by simp only [TokenStream.size]; omega) hrun rfl
        exact ⟨a'', r, .step hstep hreaches, hstop⟩

theorem run_eq_integer_iff {limit : Int} {a : Assembly} {s : TokenStream} (hdecimal : s.Decimal)
    {fault : IntegerFault} :
    a.run limit s = .error (.integer fault) ↔
      ∃ (a' : Assembly) (opener : Terminal .opener) (rest : TokenStream),
        Reaches limit a s a' (next opener.1 rest) ∧ rest.GivesUnreadable fault := by
  constructor
  · intro h
    obtain ⟨a', r, hreaches, ⟨t, r', rfl, hstep⟩ | ⟨p, rfl, hfinish⟩ | ⟨_, -, he⟩⟩ :=
      exists_reaches_of_run h
    · have hrest := (hreaches.decimal hdecimal).tail
      obtain ⟨hopener, hunreadable⟩ := (step_eq_integer_iff hrest).mp hstep
      exact ⟨a', ⟨t, hopener⟩, r', hreaches, hunreadable⟩
    · exact absurd hfinish (documented_of_blamesToken (blamesToken_finish a') fault)
    · cases he
  · rintro ⟨a', opener, rest, hreaches, hunreadable⟩
    have hrest := (hreaches.decimal hdecimal).tail
    have hstep : a'.step limit opener.1 rest = .error (.integer fault) :=
      (step_eq_integer_iff hrest).mpr ⟨opener.2, hunreadable⟩
    rw [hreaches.run_eq, run_next, hstep, error_bind]

end Assembly

end TextTemplate
