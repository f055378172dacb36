import TextTemplate.Proofs.Lookahead.Agreement

/-! Parsing ends on every list of tokens. No loop of the parser takes a turn without consuming a
token, and none consumes the end of the input. -/

namespace TextTemplate

namespace TokenStream

theorem ofTokens_behind_end {t : Token} (ht : t.kind = .endOfInput) (failure : Option LexError)
    (last : Position) (before behind other : List Token) :
    ofTokens failure last (before ++ t :: behind) =
      ofTokens failure last (before ++ t :: other) := by
  induction before generalizing last with
  | nil => simp [ofTokens, ht]
  | cons t' before ih => simp only [List.cons_append, ofTokens, ih]

theorem ofTokens_append_endAt (last : Position) (tokens : List Token) :
    ofTokens none last (tokens ++ [.endAt ((tokens.getLast?.map Token.position).getD last)]) =
      ofTokens none last tokens := by
  induction tokens generalizing last with
  | nil => rfl
  | cons t tokens ih =>
    have hlast : ((t :: tokens).getLast?.map Token.position).getD last =
        (tokens.getLast?.map Token.position).getD t.position := by
      cases tokens <;> simp [List.getLast?_eq_some_getLast]
    rw [hlast, List.cons_append, ofTokens, ofTokens, ih]

end TokenStream

namespace Parser

section Progress

variable {σ α : Type}

/-- Every turn of the loop ends, and has consumed a token if it asks for another one. -/
def Progresses (turn : σ → Parser (Turn σ α)) : Prop :=
  ∀ state l, ∃ result l', (turn state).outcome l = some (result, l') ∧
    ∀ state', result = .ok (.again state') → l.Consumes l'

theorem progresses_of_ends {turn : σ → Parser (Turn σ α)}
    {Q : σ → Lookahead → Except CompileError α → Lookahead → Prop}
    (h : ∀ state l, Ends (turn state) l (TurnOf Q state l)) : Progresses turn := by
  intro state l
  obtain ⟨result, l', houtcome, -, hturn⟩ := h state l
  refine ⟨result, l', houtcome, ?_⟩
  rintro state' rfl
  exact hturn.1

end Progress

/-- Every nesting of blocks is the one of an assembly. -/
theorem exists_ofOpen (n : Nesting) :
    ∃ openBlocks : List OpenBlock, Nesting.ofOpen n.limit openBlocks = n := by
  obtain ⟨limit, blocks⟩ := n
  induction blocks with
  | nil => exact ⟨[], rfl⟩
  | cons b blocks ih =>
    obtain ⟨openBlocks, hblocks⟩ := ih
    obtain rfl : openBlocks.map OpenBlock.enclosing = blocks := congrArg Nesting.blocks hblocks
    obtain ⟨opener, part⟩ := b
    let head : Path := ⟨[], true⟩
    cases part with
    | branch => exact ⟨⟨opener, .branch opener head [], []⟩ :: openBlocks, rfl⟩
    | otherwise => exact ⟨⟨opener, .otherwise ⟨opener, head, []⟩ [], []⟩ :: openBlocks, rfl⟩
    | loop => exact ⟨⟨opener, .loop "" none head, []⟩ :: openBlocks, rfl⟩
    | binding => exact ⟨⟨opener, .binding head "", []⟩ :: openBlocks, rfl⟩

/-- The parser ends on every list of tokens, answers what compiling them does, and never holds more
than two tokens in its buffer. Every turn of each of its loops that asks for another one consumes a
token. What stands behind an end of the input does not matter, and a list without one is read as if
it ended at the position of its last token. -/
theorem parse_ends (limit : Int) (name : String) :
    (∀ tokens, ∃ l, (parse limit name).outcome (.ofTokens tokens) =
      some (Template.ofTokens tokens name limit, l) ∧ l.widest ≤ 2) ∧
    Progresses (dottedTurn readSegment) ∧
    Progresses (dottedTurn (expect .identifier .templateName)) ∧ Progresses literalTurn ∧
    Progresses argumentTurn ∧ (∀ n : Nesting, Progresses n.nodesTurn) ∧
    (∀ (n : Nesting) opener, Progresses (n.branchTurn opener)) ∧
    (∀ before t behind other, t.kind = .endOfInput →
      Template.ofTokens (before ++ t :: behind) name limit =
        Template.ofTokens (before ++ t :: other) name limit) ∧
    ∀ tokens : List Token, Template.ofTokens
      (tokens ++ [.endAt ((tokens.getLast?.map Token.position).getD .start)]) name limit =
        Template.ofTokens tokens name limit := by
  refine ⟨?_, ?_, ?_, ?_, ?_, ?_, ?_, ?_, ?_⟩
  · intro tokens
    obtain ⟨result, l, houtcome, hfollows, rfl⟩ := ends_parse limit name tokens
    exact ⟨l, houtcome, hfollows.widest_le⟩
  · exact progresses_of_ends (turns_dottedTurn reads_readSegment TokenStream.readSegments_eq)
  · exact progresses_of_ends
      (turns_dottedTurn (reads_expect (by decide)) TokenStream.readNames_eq)
  · exact progresses_of_ends turns_literalTurn
  · exact progresses_of_ends turns_argumentTurn
  · intro n
    obtain ⟨openBlocks, hn⟩ := exists_ofOpen n
    rw [← hn]
    exact progresses_of_ends fun state l => ends_nodesTurn (fun l' _ => nodesAt n.limit l') state
  · intro n opener
    obtain ⟨openBlocks, hn⟩ := exists_ofOpen n
    rw [← hn]
    exact progresses_of_ends fun state l =>
      ends_branchTurn (fun l' _ => nodesAt n.limit l') [] opener state
  · intro before t behind other ht
    rw [Template.ofTokens, Template.ofTokens, TokenStream.ofList, TokenStream.ofList,
      TokenStream.ofTokens_behind_end ht none .start before behind other]
  · intro tokens
    rw [Template.ofTokens, Template.ofTokens, TokenStream.ofList, TokenStream.ofList,
      TokenStream.ofTokens_append_endAt]

/-- A text with a stray token behind the end of the input. -/
theorem parse_ends_text : ∃ l,
    (parse 0 "t").outcome (.ofTokens [⟨.text, "a", ⟨0, 1, 1⟩⟩, .endAt ⟨1, 1, 2⟩,
      ⟨.closer, "\x7d\x7d", ⟨1, 1, 2⟩⟩]) =
        some (.ok ⟨"t", [.text ⟨0, 1, 1⟩ "a"]⟩, l) ∧ l.widest ≤ 2 := by
  obtain ⟨hends, -, -, -, -, -, -, hbehind, -⟩ := parse_ends 0 "t"
  obtain ⟨l, houtcome, hwidest⟩ := hends [⟨.text, "a", ⟨0, 1, 1⟩⟩, .endAt ⟨1, 1, 2⟩,
    ⟨.closer, "\x7d\x7d", ⟨1, 1, 2⟩⟩]
  have hcut := hbehind [⟨.text, "a", ⟨0, 1, 1⟩⟩] (.endAt ⟨1, 1, 2⟩)
    [⟨.closer, "\x7d\x7d", ⟨1, 1, 2⟩⟩] [] rfl
  have htext : Template.ofTokens [⟨.text, "a", ⟨0, 1, 1⟩⟩, .endAt ⟨1, 1, 2⟩] "t" 0 =
      .ok ⟨"t", [.text ⟨0, 1, 1⟩ "a"]⟩ := by cbv
  exact ⟨l, by rw [houtcome, ← htext]; exact congrArg (fun r => some (r, l)) hcut, hwidest⟩

end Parser

end TextTemplate
