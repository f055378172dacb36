import TextTemplate.Compile
import TextTemplate.Proofs.Grammar.AssemblyInversion
import TextTemplate.Proofs.Grammar.Unambiguity

/-! The parser accepts the lists of tokens that have a derivation in the grammar, and builds the
nodes of that derivation. -/

namespace TextTemplate

/-- The tokens before the first end of the input. -/
def tokensRead (tokens : List Token) : List Token := tokens.takeWhile (·.kind ≠ .endOfInput)

namespace TokenStream

theorem exists_ofTokens_eq (last : Position) (tokens : List Token) :
    ∃ position, ofTokens none last tokens = (ended position).prepend (tokensRead tokens) := by
  induction tokens generalizing last with
  | nil => exact ⟨last, rfl⟩
  | cons t tokens ih =>
    by_cases hend : t.kind = .endOfInput
    · exact ⟨t.position, by simp [ofTokens, tokensRead, hend]⟩
    · obtain ⟨position, hrest⟩ := ih t.position
      refine ⟨position, ?_⟩
      rw [ofTokens, if_neg hend, hrest, tokensRead, tokensRead,
        List.takeWhile_cons_of_pos (by simpa using hend), prepend_cons]

end TokenStream

namespace Template

/-- A list of tokens is accepted when it derives from the grammar with no more blocks open at
once than the limit allows, and it has one derivation only. A limit below zero allows none. -/
theorem ofTokens_eq_ok_iff {tokens : List Token} (name : String) (limit : Int) (t : Template)
    (hdecimal : ∀ t ∈ tokensRead tokens, t.kind = .integer → IsDecimal t.value) :
    (ofTokens tokens name limit = .ok t ↔
      ∃ c : Content, c.tokens = tokensRead tokens ∧ c.mostOpen ≤ limit.toNat ∧
        t = ⟨name, c.nodes false false⟩) ∧
    ∀ c c' : Content, c.tokens = tokensRead tokens → c'.tokens = tokensRead tokens → c = c' := by
  obtain ⟨position, hstream⟩ := TokenStream.exists_ofTokens_eq .start tokens
  have htokens : ((TokenStream.ended position).prepend (tokensRead tokens)).tokens =
      tokensRead tokens := by
    simp [TokenStream.tokens_prepend, TokenStream.tokens]
  have hdecimal' : (TokenStream.ofList tokens).Decimal := by
    rw [TokenStream.ofList, hstream, TokenStream.Decimal, htokens]
    exact fun t ht hkind _ _ => hdecimal t ht hkind
  have haccepts : ofTokens tokens name limit = .ok t ↔
      ∃ nodes, Assembly.start.run limit (TokenStream.ofList tokens) = .ok nodes ∧
        t = ⟨name, nodes⟩ := by
    rw [ofTokens, Attempt.bind_eq_ok]
    simp only [Attempt.pure_eq, Except.ok.injEq, eq_comm (b := t)]
  refine ⟨haccepts.trans ⟨?_, ?_⟩, ?_⟩
  · rintro ⟨nodes, hrun, rfl⟩
    obtain ⟨c, position', hc, hdepth, rfl⟩ := (Assembly.run_start_eq_ok_iff hdecimal').mp hrun
    refine ⟨c, ?_, hdepth, rfl⟩
    rw [← htokens, ← hstream, ← TokenStream.ofList, hc]
    simp [TokenStream.tokens_prepend, TokenStream.tokens]
  · rintro ⟨c, hc, hdepth, rfl⟩
    refine ⟨_, (Assembly.run_start_eq_ok_iff hdecimal').mpr ⟨c, position, ?_, hdepth, rfl⟩, rfl⟩
    rw [TokenStream.ofList, hstream, hc]
  · intro c c' hc hc'
    have htokens : c.tokens ++ [] = c'.tokens ++ [] := by rw [hc, hc']
    exact (Content.tokens_inj (.inl rfl) (.inl rfl) htokens).1

/-- A value with a formatter that takes a number; nothing behind the end of the input is read. -/
theorem ofTokens_formatted :
    (∀ t ∈ tokensRead [⟨.opener, "\x7b\x7b", ⟨0, 1, 1⟩⟩, ⟨.atSign, "@", ⟨2, 1, 3⟩⟩,
        ⟨.pipe, "|", ⟨3, 1, 4⟩⟩, ⟨.identifier, "pad", ⟨4, 1, 5⟩⟩, ⟨.integer, "007", ⟨8, 1, 9⟩⟩,
        ⟨.closer, "\x7d\x7d", ⟨11, 1, 12⟩⟩, .endAt ⟨13, 1, 14⟩, ⟨.integer, "x", ⟨13, 1, 14⟩⟩],
      t.kind = .integer → IsDecimal t.value) ∧
    ofTokens [⟨.opener, "\x7b\x7b", ⟨0, 1, 1⟩⟩, ⟨.atSign, "@", ⟨2, 1, 3⟩⟩,
        ⟨.pipe, "|", ⟨3, 1, 4⟩⟩, ⟨.identifier, "pad", ⟨4, 1, 5⟩⟩, ⟨.integer, "007", ⟨8, 1, 9⟩⟩,
        ⟨.closer, "\x7d\x7d", ⟨11, 1, 12⟩⟩, .endAt ⟨13, 1, 14⟩, ⟨.integer, "x", ⟨13, 1, 14⟩⟩]
      "t" 0 =
      .ok ⟨"t", [.value ⟨0, 1, 1⟩ ⟨[], true⟩ (some ⟨"pad", [.integer 7]⟩)]⟩ := by
  have hdecimal : IsDecimal "007" := ⟨⟨by decide, by decide⟩, by decide⟩
  refine ⟨?_, (ofTokens_eq_ok_iff _ _ _ ?_).1.mpr ⟨.leaf ⟨⟨_, rfl⟩, .value ⟨⟨⟨_, .inl rfl⟩, []⟩,
    some ⟨⟨_, rfl⟩, ⟨_, rfl⟩, [⟨_, .inr ⟨rfl, hdecimal⟩⟩]⟩⟩, ⟨_, rfl⟩⟩ .nil, rfl, Nat.le_refl 0, ?_⟩⟩
  · simpa [tokensRead, Token.endAt] using hdecimal
  · simpa [tokensRead, Token.endAt] using hdecimal
  · simp [Content.nodes, LeafPhrase.node, PathPhrase.path, FormatterPhrase.formatter,
      LiteralToken.literal]
    decide

end Template

end TextTemplate
