import TextTemplate.Proofs.Grammar.Phrase
import TextTemplate.Proofs.Quoting
import TextTemplate.Proofs.Source.WellFormed

/-! Characters that the scan reads as given tokens. Inside a directive every token is written with
a blank before it, so that none of them runs into the next. -/

namespace TextTemplate

def Scanned.prepend (tokens : List Token) (s : Scanned) : Scanned :=
  { s with tokens := tokens ++ s.tokens }

namespace Scanned

@[simp] theorem prepend_nil (s : Scanned) : s.prepend [] = s := rfl

theorem prepend_append (tokens tokens' : List Token) (s : Scanned) :
    s.prepend (tokens ++ tokens') = (s.prepend tokens').prepend tokens := by
  simp [prepend]

theorem cons_eq_prepend (t : Token) (s : Scanned) : s.cons t = s.prepend [t] := rfl

end Scanned

section Words

theorem isWordStart_iff {c : Char} : isWordStart c = true ↔
    65 ≤ c.toNat ∧ c.toNat ≤ 90 ∨ 97 ≤ c.toNat ∧ c.toNat ≤ 122 ∨ c.toNat = 95 := by
  have hunderscore : c = '_' ↔ c.toNat = 95 := Char.toNat_inj.symm
  have hupper : c.isUpper = true ↔ 65 ≤ c.toNat ∧ c.toNat ≤ 90 := by
    refine decide_eq_true_iff.trans ?_
    rw [ge_iff_le, UInt32.le_iff_toNat_le, UInt32.le_iff_toNat_le, Char.toNat_val]
    rfl
  have hlower : c.isLower = true ↔ 97 ≤ c.toNat ∧ c.toNat ≤ 122 := by
    refine (Bool.and_eq_true_iff).trans ?_
    rw [decide_eq_true_eq, decide_eq_true_eq, ge_iff_le, UInt32.le_iff_toNat_le,
      UInt32.le_iff_toNat_le, Char.toNat_val]
    rfl
  have halpha : c.isAlpha = true ↔ c.isUpper = true ∨ c.isLower = true := Bool.or_eq_true_iff
  rw [isWordStart, Bool.or_eq_true, beq_iff_eq, halpha, hupper, hlower, hunderscore, or_assoc]

theorem identifierTail_append_blank {w : List Char} (h : IsWordTail w) (rest : List Char) :
    identifierTail (w ++ ' ' :: rest) = w := by
  induction h with
  | nil => cases rest <;> simp [identifierTail, isWordChar]
  | @char c w hc _ ih => rw [List.cons_append, identifierTail_cons hc, ih]
  | @dash c w hc _ ih =>
    rw [List.cons_append, List.cons_append, identifierTail, if_pos (by simp [hc]),
      identifierTail_cons hc, ih]

theorem identifier?_append_blank {w : List Char} (h : IsIdentifier w) (rest : List Char) :
    identifier? (w ++ ' ' :: rest) = some w := by
  cases w with
  | nil => exact absurd rfl h.ne_nil
  | cons c w =>
    obtain ⟨hc, hw⟩ := isIdentifier_cons_iff.mp h
    rw [List.cons_append, identifier?, if_pos hc, identifierTail_append_blank hw]

theorem integer?_append_blank {w : List Char} (h : IsInteger w) (rest : List Char) :
    integer? (w ++ ' ' :: rest) = some w := by
  obtain ⟨hne, hall⟩ := h
  cases w with
  | nil => exact absurd rfl hne
  | cons c w =>
    simp only [List.all_cons, Bool.and_eq_true] at hall
    rw [List.cons_append, integer?, if_pos hall.1,
      List.takeWhile_append_of_pos (by simpa using hall.2)]
    simp

end Words

section Tokens

variable {opener p : Position}

/-- Behind a blank, the characters that a token of a directive may begin with. -/
structure IsLead (c : Char) : Prop where
  blank : isBlank c = false
  hash : c ≠ '#'
  dash : c ≠ '-'
  brace : c ≠ '}'

theorem isLead_of_isWordStart {c : Char} (h : isWordStart c = true) : IsLead c := by
  have hcode := isWordStart_iff.mp h
  refine ⟨?_, ?_, ?_, ?_⟩
  · cases hblank : isBlank c with
    | false => rfl
    | true =>
      simp only [isBlank, inRanges_iff, blankRanges] at hblank
      simp at hblank
      omega
  all_goals
    rintro rfl
    simp [isWordStart] at h

theorem isLead_of_isDigit {c : Char} (h : c.isDigit = true) : IsLead c := by
  refine ⟨not_isBlank_of_isDigit h, ?_, ?_, ?_⟩
  all_goals
    rintro rfl
    simp at h

/-- Inside a directive, and whatever follows behind a blank, the scan reads the characters as the
tokens. -/
structure Spells (opener p : Position) (cs : List Char) (tokens : List Token) : Prop where
  lead : cs = [] ∨ ∃ c more, cs = ' ' :: c :: more ∧ IsLead c
  scans : ∀ rest, scanFrom (.directive opener) ⟨p, cs ++ ' ' :: rest⟩ =
    (scanFrom (.directive opener) ⟨p.advance cs, ' ' :: rest⟩).prepend tokens

namespace Spells

theorem nil : Spells opener p [] [] := ⟨.inl rfl, fun _ => rfl⟩

theorem append {cs cs' : List Char} {tokens tokens' : List Token} (h : Spells opener p cs tokens)
    (h' : Spells opener (p.advance cs) cs' tokens') :
    Spells opener p (cs ++ cs') (tokens ++ tokens') := by
  have hlead : ∀ rest, ∃ more, cs' ++ ' ' :: rest = ' ' :: more := by
    intro rest
    rcases h'.lead with rfl | ⟨c, more, rfl, -⟩
    · exact ⟨rest, rfl⟩
    · exact ⟨_, rfl⟩
  refine ⟨?_, ?_⟩
  · rcases h.lead with rfl | ⟨c, more, rfl, hc⟩
    · exact h'.lead
    · exact .inr ⟨c, more ++ cs', rfl, hc⟩
  · intro rest
    obtain ⟨more, hmore⟩ := hlead rest
    rw [List.append_assoc, hmore, h.scans, ← hmore, h'.scans, Position.advance_append,
      Scanned.prepend_append]

theorem ne_nil {cs : List Char} {tokens : List Token} (h : Spells opener p cs tokens)
    (hne : tokens ≠ []) : cs ≠ [] := by
  rintro rfl
  have hlength := congrArg (·.tokens.length) (h.scans [])
  simp only [List.nil_append, Position.advance_nil, Scanned.prepend, List.length_append] at hlength
  exact hne (List.eq_nil_of_length_eq_zero (by omega))

end Spells

theorem skipBlank_lead {c : Char} (hc : isBlank c = false) (more : List Char) :
    Cursor.skipBlank ⟨p, ' ' :: c :: more⟩ = ⟨p.next ' ', c :: more⟩ := by
  have hgap : [' '].all isBlank = true := rfl
  exact skipBlank_append hgap (by simpa using hc)

theorem Spells.token {c : Char} {more : List Char} {t : Token} (hc : IsLead c)
    (hscan : ∀ rest, scanDirective opener ⟨p.next ' ', c :: more ++ ' ' :: rest⟩ =
      .token t (.directive opener) ⟨(p.next ' ').advance (c :: more), ' ' :: rest⟩) :
    Spells opener p (' ' :: c :: more) [t] := by
  refine ⟨.inr ⟨c, more, rfl, hc⟩, fun rest => ?_⟩
  refine scanFrom_of_token ?_
  rw [scanStep, List.cons_append, List.cons_append, skipBlank_lead hc.blank]
  exact hscan rest

theorem scanDirective_symbol {c : Char} {kind : TokenKind} (hc : IsLead c)
    (h : symbolKind? c = some kind) (more : List Char) :
    scanDirective opener ⟨p, c :: more⟩ =
      .spelled kind [c] (.directive opener) ⟨p, c :: more⟩ := by
  obtain ⟨-, -, hdash, hbrace⟩ := hc
  unfold scanDirective
  split <;> simp_all

theorem scanDirective_word {c : Char} (h : isWordChar c = true) (more : List Char) :
    scanDirective opener ⟨p, c :: more⟩ = scanWord opener ⟨p, c :: more⟩ c := by
  have hsymbol : symbolKind? c = none := by
    unfold symbolKind?
    split <;> first | rfl | simp [isWordChar] at h
  have hquote : isQuote c = false := by
    cases hquote : isQuote c with
    | false => rfl
    | true =>
      simp only [isQuote, Bool.or_eq_true, beq_iff_eq] at hquote
      rcases hquote with rfl | rfl <;> simp [isWordChar] at h
  have hdash : c ≠ '-' := by
    rintro rfl
    simp [isWordChar] at h
  have hbrace : c ≠ '}' := by
    rintro rfl
    simp [isWordChar] at h
  unfold scanDirective
  split <;> simp_all

theorem isLead_of_symbolKind? {c : Char} {kind : TokenKind} (h : symbolKind? c = some kind) :
    IsLead c := by
  have hmem := mem_of_symbolKind? h
  simp only [List.mem_cons, Prod.mk.injEq, List.not_mem_nil, or_false] at hmem
  rcases hmem with ⟨rfl, -⟩ | ⟨rfl, -⟩ | ⟨rfl, -⟩ | ⟨rfl, -⟩ | ⟨rfl, -⟩ <;>
    exact ⟨rfl, by decide, by decide, by decide⟩

theorem spells_symbol {c : Char} {kind : TokenKind} (h : symbolKind? c = some kind) :
    Spells opener p [' ', c] [⟨kind, String.ofList [c], p.next ' '⟩] := by
  refine .token (isLead_of_symbolKind? h) fun rest => ?_
  rw [List.cons_append, scanDirective_symbol (isLead_of_symbolKind? h) h]
  exact congrArg _ (behind_append [c] (' ' :: rest))

theorem spells_word {word : List Char} (h : IsIdentifier word) :
    Spells opener p (' ' :: word) [⟨wordKind word, String.ofList word, p.next ' '⟩] := by
  cases word with
  | nil => exact absurd rfl h.ne_nil
  | cons c more =>
    have hstart := (isIdentifier_cons_iff.mp h).1
    refine .token (isLead_of_isWordStart hstart) fun rest => ?_
    have hinteger : integer? (c :: more ++ ' ' :: rest) = none := by
      have hcode := isWordStart_iff.mp hstart
      have hdigit : ¬ c.isDigit = true := by
        rw [digit_le_iff]
        omega
      rw [List.cons_append, integer?, if_neg hdigit]
    have hword := identifier?_append_blank h rest
    rw [List.cons_append, scanDirective_word (isWordChar_of_isWordStart hstart), ← List.cons_append]
    simp only [scanWord, hinteger, hword, ScanStep.spelled, behind_append]

theorem spells_integer {digits : List Char} (h : IsInteger digits) :
    Spells opener p (' ' :: digits) [⟨.integer, String.ofList digits, p.next ' '⟩] := by
  cases digits with
  | nil => exact absurd rfl h.1
  | cons c more =>
    have hdigit : c.isDigit = true := by
      have hall := h.2
      rw [List.all_cons, Bool.and_eq_true] at hall
      exact hall.1
    refine .token (isLead_of_isDigit hdigit) fun rest => ?_
    have hinteger := integer?_append_blank h rest
    rw [List.cons_append, scanDirective_word (by simp [isWordChar, Char.isAlphanum, hdigit]),
      ← List.cons_append]
    simp only [scanWord, hinteger, ScanStep.spelled, behind_append]

theorem spells_string (value : String) :
    Spells opener p (' ' :: '"' :: (escape '"' value.toList ++ ['"']))
      [⟨.string, value, p.next ' '⟩] := by
  refine .token ⟨rfl, by decide, by decide, by decide⟩ fun rest => ?_
  exact scanDirective_literal rfl opener (p.next ' ') value (' ' :: rest)

end Tokens

end TextTemplate
