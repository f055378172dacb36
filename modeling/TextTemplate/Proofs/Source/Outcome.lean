import TextTemplate.Proofs.Nesting.Limit

/-! How compiling a text can end: with a template or with an error of the scanner or the parser,
unless a number is too long to be read, or to be written in the text of an error. -/

namespace TextTemplate

/-- The integers of a text are refused for their length only. -/
theorem TokenStream.exists_fault_iff {source : String} {t : Token}
    (ht : t ∈ (ofText source).tokens) (hkind : t.kind = .integer) :
    (∃ fault, readInteger t.value = .error fault) ↔
      maxIntegerDigits < t.value.toList.length := by
  have htokens : (ofText source).tokens = tokensRead (scan source).tokens :=
    tokens_ofTokens _ _ _
  rw [htokens] at ht
  have hfits : t.Fits := fits_of_mem_scanFrom t (List.takeWhile_subset _ ht)
  have hinteger : IsInteger t.value.toList := by simpa only [Token.Fits, hkind] using hfits
  rw [readInteger_digits hinteger]
  by_cases hlong : maxIntegerDigits < t.value.toList.length <;> simp [hlong]

namespace Template

open Assembly (Reaches)

variable (source name : String) (limit : Int)

theorem exists_integer_fault_iff :
    (∃ fault, compile source name limit = .error (.integer fault)) ↔
      ∃ (a : Assembly) (opener : Terminal .opener) (p : ValuePhrase) (t : Terminal .integer)
        (rest : TokenStream),
        Reaches limit .start (.ofText source) a
          (.next opener.1 ((TokenStream.next t.1 rest).prepend p.tokens)) ∧
        p.formatter.isSome = true ∧ maxIntegerDigits < t.1.value.toList.length := by
  have hdecimal := TokenStream.decimal_ofText source
  have hlong {a : Assembly} {opener : Terminal .opener} {p : ValuePhrase} {t : Terminal .integer}
      {rest : TokenStream} (hreaches : Reaches limit .start (.ofText source) a
        (.next opener.1 ((TokenStream.next t.1 rest).prepend p.tokens))) :
      (∃ fault, readInteger t.1.value = .error fault) ↔
        maxIntegerDigits < t.1.value.toList.length := by
    have hsubset := hreaches.tokens_subset hdecimal
    refine TokenStream.exists_fault_iff (hsubset ?_) t.2
    simp [TokenStream.tokens, TokenStream.tokens_prepend]
  constructor
  · rintro ⟨fault, h⟩
    obtain ⟨a, opener, rest, hreaches, p, t, rest', hsome, rfl, hread⟩ :=
      (Assembly.run_eq_integer_iff hdecimal).mp (compile_eq_error_iff.mp h)
    exact ⟨a, opener, p, t, rest', hreaches, hsome, (hlong hreaches).mp ⟨fault, hread⟩⟩
  · rintro ⟨a, opener, p, t, rest, hreaches, hsome, hdigits⟩
    obtain ⟨fault, hread⟩ := (hlong hreaches).mpr hdigits
    refine ⟨fault, compile_eq_error_iff.mpr ((Assembly.run_eq_integer_iff hdecimal).mpr ?_)⟩
    exact ⟨a, opener, _, hreaches, p, t, rest, hsome, rfl, hread⟩

theorem exists_limit_fault_iff :
    (∃ fault, compile source name limit = .error (.limit fault)) ↔
      IsLong limit ∧ ∃ (a : Assembly) (head : Tag HeadPhrase) (rest : TokenStream),
        Reaches limit .start (.ofText source) a (rest.prepend (head.tokens HeadPhrase.tokens)) ∧
        limit ≤ a.blocks.length := by
  have hdeep (a : Assembly) : limit ≤ a.blocks.length ↔ limit.toNat ≤ a.pending.length := by
    rw [Assembly.length_pending]
    omega
  constructor
  · rintro ⟨fault, h⟩
    obtain ⟨a, head, rest, hreaches, hlength, hlimit⟩ :=
      Assembly.run_eq_tooDeep_iff.mp ⟨compile_eq_error_iff.mp h, rfl⟩
    have hlong := (CompileError.exists_tooDeep_eq_limit_iff limit _).mp ⟨fault, hlimit.symm⟩
    exact ⟨hlong, a, head, rest, hreaches, (hdeep a).mpr hlength⟩
  · rintro ⟨hlong, a, head, rest, hreaches, hlength⟩
    obtain ⟨fault, hfault⟩ :=
      (CompileError.exists_tooDeep_eq_limit_iff limit head.opener.1.position).mpr hlong
    refine ⟨fault, compile_eq_error_iff.mpr ?_⟩
    exact (Assembly.run_eq_tooDeep_iff.mpr
      ⟨a, head, rest, hreaches, (hdeep a).mp hlength, hfault.symm⟩).1

/-- Compiling gives a template or one of the two documented errors, unless it gets as far as a
formatter with a number of too many digits, or to a block beyond a limit that has too many digits
itself. -/
theorem compile_documented_iff :
    ((∃ t, compile source name limit = .ok t) ∨
      (∃ e, compile source name limit = .error (.lex e)) ∨
      ∃ e, compile source name limit = .error (.parse e)) ↔
    (¬ ∃ (a : Assembly) (opener : Terminal .opener) (p : ValuePhrase) (t : Terminal .integer)
      (rest : TokenStream),
      Reaches limit .start (.ofText source) a
        (.next opener.1 ((TokenStream.next t.1 rest).prepend p.tokens)) ∧
      p.formatter.isSome = true ∧ maxIntegerDigits < t.1.value.toList.length) ∧
    ¬ (IsLong limit ∧ ∃ (a : Assembly) (head : Tag HeadPhrase) (rest : TokenStream),
      Reaches limit .start (.ofText source) a (rest.prepend (head.tokens HeadPhrase.tokens)) ∧
      limit ≤ a.blocks.length) := by
  rw [← exists_integer_fault_iff source name limit, ← exists_limit_fault_iff source name limit]
  cases compile source name limit with
  | ok t => simp
  | error e => cases e <;> simp

end Template

end TextTemplate
