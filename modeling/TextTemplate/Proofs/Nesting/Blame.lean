import TextTemplate.Proofs.Nesting.Pending

/-! Which directive is blamed for a block that is not closed. At the end of the input it is the head
of the innermost open block. A word that this block cannot take is blamed on it as well, if a block
further out could take the word, and on the word itself otherwise. -/

namespace TextTemplate

namespace Pending

/-- The word belongs to the block by its kind. An `else` belongs to an if-block whose last part has
begun, too, though it cannot go on with it. -/
def Claims (b : Pending) (word : Keyword) : Prop :=
  b.Takes word ∨ b.kind = .ifBlock ∧ word = .elseWord

theorem claims_iff (b : Pending) (word : Keyword) : b.Claims word ↔ b.kind.closedBy word := by
  cases hkind : b.kind <;> simp [Claims, Takes, BlockKind.closedBy, hkind]
  tauto

end Pending

namespace Assembly

open TokenStream (next prepend)

variable {limit : Int} {a : Assembly}

theorem finish_of_pending {b : Pending} {outer : List Pending} (h : a.pending = b :: outer) :
    a.finish = .error (.parse ⟨.unclosed b.kind "end of input", b.opener⟩) := by
  obtain ⟨b', outer', hblocks, rfl, -⟩ := List.map_eq_cons_iff.mp h
  rw [finish, hblocks]
  rfl

theorem addCloser_of_not_takes {word : Keyword} (h : ∀ b ∈ a.pending.head?, ¬ b.Takes word)
    (t : Token) (s : TokenStream) : a.addCloser word t s = .error (a.misplaced word t) := by
  obtain ⟨blocks, nodes, strips⟩ := a
  cases blocks with
  | nil => rfl
  | cons b outer =>
    have hfree : ¬ b.pending.Takes word := h b.pending rfl
    refine Likeness.addCloser_misplaced b outer nodes strips ?_ ?_ t s
    · exact fun hword => hfree (.inl hword)
    · intro position condition earlier hstate hword
      refine hfree (.inr ?_)
      rw [OpenBlock.pending, hstate]
      exact ⟨rfl, rfl, hword⟩

theorem misplaced_of_claims {word : Keyword} {b : Pending} {outer : List Pending}
    (h : a.pending = b :: outer) (hclaims : ∃ b' ∈ outer, b'.Claims word) (t : Token) :
    a.misplaced word t = .parse ⟨.unclosed b.kind t.describe, b.opener⟩ := by
  obtain ⟨b₀, outer₀, hblocks, rfl, rfl⟩ := List.map_eq_cons_iff.mp h
  obtain ⟨b', hmem, hclaims⟩ := hclaims
  obtain ⟨b₁, hmem₁, rfl⟩ := List.mem_map.mp hmem
  have hany : outer₀.any (·.state.kind.closedBy word) = true :=
    List.any_eq_true.mpr ⟨b₁, hmem₁, (b₁.pending.claims_iff word).mp hclaims⟩
  rw [misplaced, hblocks]
  exact if_pos hany

theorem expected_eq (a : Assembly) :
    a.expected = a.pending.head?.elim .content fun b => .blockCloser b.kind := by
  obtain ⟨blocks, nodes, strips⟩ := a
  cases blocks <;> rfl

theorem misplaced_of_not_claims {word : Keyword}
    (h : ∀ b ∈ a.pending.tail, ¬ b.Claims word) (t : Token) :
    a.misplaced word t = .parse ⟨.strayCloser a.expected t.value, t.position⟩ := by
  obtain ⟨blocks, nodes, strips⟩ := a
  cases blocks with
  | nil => rfl
  | cons b outer =>
    have hany : ¬ outer.any (·.state.kind.closedBy word) = true := by
      intro hany
      obtain ⟨b', hmem, hclosed⟩ := List.any_eq_true.mp hany
      exact h b'.pending (List.mem_map_of_mem hmem) ((b'.pending.claims_iff word).mpr hclosed)
    rw [misplaced]
    exact if_neg hany

theorem run_misplaced {word : Keyword} (hword : word.isCloser = true)
    (h : ∀ b ∈ a.pending.head?, ¬ b.Takes word) (opener : Terminal .opener)
    (t : Terminal (.keyword word)) (s : TokenStream) :
    a.run limit (next opener.1 (next t.1 s)) = .error (a.misplaced word t.1) := by
  rw [run_next, step_word _ _ _ _ _ hword, addCloser_of_not_takes h]
  rfl

end Assembly

namespace Template

/-- Where blocks are open at the end of the input, the error is at the opener of the innermost one.
Its head is where the others were open, and nothing behind it has stayed open besides. -/
theorem ofTokens_unclosed {tokens : List Token} {pieces : List Piece} {b : Pending}
    {outer : List Pending} {limit : Int} (name : String)
    (htokens : tokensRead tokens = pieces.flatMap Piece.tokens)
    (h : Leaves limit.toNat [] pieces (b :: outer)) :
    ∃ e, ofTokens tokens name limit = .error (.parse e) ∧
      e.fault = .unclosed b.kind "end of input" ∧
      e.fault.expected.text = s!"'{b.kind.closer.word}'" ∧ e.fault.found = "end of input" ∧
      e.position = b.opener ∧
      ∃ before tag behind, pieces = before ++ .head tag :: behind ∧
        Leaves limit.toNat [] before outer ∧
        Leaves limit.toNat (⟨tag.opener.1.position, tag.inside.kind, false⟩ :: outer) behind
          (b :: outer) ∧
        e.position = tag.opener.1.position ∧ b.kind = tag.inside.kind := by
  obtain ⟨a, position, hpending, hrun⟩ :=
    exists_ofTokens_run name (by rw [htokens, List.append_nil]) h
  obtain ⟨before, tag, behind, hpieces, hbefore, hbehind, hopener, hkind⟩ := h.exists_head
  refine ⟨⟨.unclosed b.kind "end of input", b.opener⟩, (hrun _).mpr ?_, rfl, rfl, rfl, rfl,
    before, tag, behind, hpieces, hbefore, hbehind, hopener.symm, hkind.symm⟩
  rw [TokenStream.prepend_nil, Assembly.run, Assembly.finish_of_pending hpending]

/-- In the last part of an if-block the error is still at the opener of its head. -/
theorem ofTokens_unclosed_else :
    ofTokens (samplePieces.flatMap Piece.tokens ++ [.endAt ⟨20, 1, 21⟩]) "t" 1 =
      .error (.parse ⟨.unclosed .ifBlock "end of input", ⟨0, 1, 1⟩⟩) := by
  have hread : tokensRead (samplePieces.flatMap Piece.tokens ++ [.endAt ⟨20, 1, 21⟩]) =
      samplePieces.flatMap Piece.tokens := rfl
  have hleaves : Leaves (Int.toNat 1) [] samplePieces [⟨⟨0, 1, 1⟩, .ifBlock, true⟩] :=
    leaves_sample (by decide)
  obtain ⟨⟨fault, position⟩, herror, rfl, -, -, rfl, -⟩ := ofTokens_unclosed "t" hread hleaves
  exact herror

/-- A word that the innermost block cannot take is blamed on that block, by its opener, if one
further out could take it. An if-block further out counts for an `else` even when it has had its
own. Where there is none, the word itself is the unexpected one. -/
theorem ofTokens_misplaced {tokens more : List Token} {pieces : List Piece} {bs : List Pending}
    {word : Keyword} {limit : Int} (name : String) (opener : Terminal .opener)
    (t : Terminal (.keyword word)) (hword : word.isCloser = true)
    (htokens : tokensRead tokens = pieces.flatMap Piece.tokens ++ opener.1 :: t.1 :: more)
    (h : Leaves limit.toNat [] pieces bs) (hfree : ∀ b ∈ bs.head?, ¬ b.Takes word) :
    (∀ b outer, bs = b :: outer →
      (∃ b' ∈ outer, b'.Claims word) →
      ofTokens tokens name limit = .error (.parse ⟨.unclosed b.kind t.1.describe, b.opener⟩)) ∧
    ((∀ b' ∈ bs.tail, ¬ b'.Claims word) →
      ofTokens tokens name limit = .error (.parse ⟨.strayCloser
        (bs.head?.elim .content fun b => .blockCloser b.kind) t.1.value, t.1.position⟩)) := by
  obtain ⟨a, position, rfl, hrun⟩ := exists_ofTokens_run name htokens h
  have hmisplaced : ofTokens tokens name limit = .error (a.misplaced word t.1) :=
    (hrun _).mpr (Assembly.run_misplaced hword hfree opener t _)
  constructor
  · intro b outer hpending hclaims
    rw [hmisplaced, Assembly.misplaced_of_claims hpending hclaims]
  · intro hclaims
    rw [hmisplaced, Assembly.misplaced_of_not_claims hclaims, Assembly.expected_eq]

/-- A second `else` is blamed on the loop in front of it, and the word of a loop on itself where no
loop is open. -/
theorem ofTokens_misplaced_else :
    ofTokens ((samplePieces ++ [Piece.head sampleLoop]).flatMap Piece.tokens ++
        [⟨.opener, "\x7b\x7b", ⟨36, 1, 37⟩⟩, ⟨.keyword .elseWord, "else", ⟨39, 1, 40⟩⟩]) "t" 2 =
      .error (.parse ⟨.unclosed .forBlock "'else'", ⟨20, 1, 21⟩⟩) ∧
    ofTokens (samplePieces.flatMap Piece.tokens ++
        [⟨.opener, "\x7b\x7b", ⟨20, 1, 21⟩⟩, ⟨.keyword .endforWord, "endfor", ⟨23, 1, 24⟩⟩]) "t" 1 =
      .error (.parse ⟨.strayCloser (.blockCloser .ifBlock) "endfor", ⟨23, 1, 24⟩⟩) := by
  constructor
  · refine (ofTokens_misplaced "t" ⟨_, rfl⟩ ⟨⟨.keyword .elseWord, "else", ⟨39, 1, 40⟩⟩, rfl⟩ rfl
      (show tokensRead _ = _ ++ _ :: _ :: [] from rfl)
      (leaves_sample_loop (by decide)) ?_).1 _ _ rfl ?_
    · simp [Pending.Takes, BlockKind.closer]
    · exact ⟨_, List.mem_singleton_self _, .inr ⟨rfl, rfl⟩⟩
  · refine (ofTokens_misplaced "t" ⟨_, rfl⟩ ⟨⟨.keyword .endforWord, "endfor", ⟨23, 1, 24⟩⟩, rfl⟩ rfl
      (show tokensRead _ = _ ++ _ :: _ :: [] from rfl) (leaves_sample (by decide)) ?_).2 ?_
    · simp [Pending.Takes, BlockKind.closer]
    · simp

end Template

end TextTemplate
