import TextTemplate.Proofs.Source.Failure
import TextTemplate.Proofs.Source.OnDemand

/-! The tokens of a template as a row of pieces, and the blocks that are open behind it. The
assembling goes through a row without an error when every word that continues or ends a block finds
the innermost one open to it, and the heads stay within the limit. -/

namespace TextTemplate

inductive Piece where
  | text (t : Terminal .text)
  | leaf (tag : Tag LeafPiece)
  | head (tag : Tag HeadPhrase)
  | elseIf (tag : ElseIfTag)
  | otherwise (tag : WordTag .elseWord)
  | ending (kind : BlockKind) (tag : WordTag kind.closer)

namespace Piece

def tokens : Piece → List Token
  | text t => [t.1]
  | leaf tag => tag.tokens LeafPiece.tokens
  | head tag => tag.tokens HeadPhrase.tokens
  | elseIf tag => tag.tokens
  | otherwise tag => tag.tokens
  | ending _ tag => tag.tokens

end Piece

/-- A block that is open, the position of the opener of its head, and whether its last part, behind
an `else` without a condition, has begun. -/
structure Pending where
  opener : Position
  kind : BlockKind
  hasElse : Bool

namespace Pending

/-- The word ends the block or goes on with it. -/
def Takes (b : Pending) (word : Keyword) : Prop :=
  word = b.kind.closer ∨ b.kind = .ifBlock ∧ b.hasElse = false ∧ word = .elseWord

end Pending

/-- What a piece makes of the open blocks, which are given innermost first. -/
inductive Piece.Turns (limit : Nat) : List Pending → Piece → List Pending → Prop
  | text (bs : List Pending) (t : Terminal .text) : Turns limit bs (.text t) bs
  | leaf (bs : List Pending) (tag : Tag LeafPiece) : Turns limit bs (.leaf tag) bs
  | head {bs : List Pending} (tag : Tag HeadPhrase) (h : bs.length < limit) :
      Turns limit bs (.head tag) (⟨tag.opener.1.position, tag.inside.kind, false⟩ :: bs)
  | elseIf (opener : Position) (bs : List Pending) (tag : ElseIfTag) :
      Turns limit (⟨opener, .ifBlock, false⟩ :: bs) (.elseIf tag) (⟨opener, .ifBlock, false⟩ :: bs)
  | otherwise (opener : Position) (bs : List Pending) (tag : WordTag .elseWord) :
      Turns limit (⟨opener, .ifBlock, false⟩ :: bs) (.otherwise tag)
        (⟨opener, .ifBlock, true⟩ :: bs)
  | ending (b : Pending) (bs : List Pending) (tag : WordTag b.kind.closer) :
      Turns limit (b :: bs) (.ending b.kind tag) bs

/-- What a row of pieces makes of the open blocks. -/
inductive Leaves (limit : Nat) : List Pending → List Piece → List Pending → Prop
  | nil (bs : List Pending) : Leaves limit bs [] bs
  | cons {bs bs' bs'' : List Pending} {piece : Piece} {pieces : List Piece}
      (hturns : piece.Turns limit bs bs') (hrest : Leaves limit bs' pieces bs'') :
      Leaves limit bs (piece :: pieces) bs''

theorem Piece.Turns.length_le {limit : Nat} {bs bs' : List Pending} {piece : Piece}
    (h : piece.Turns limit bs bs') (hbs : bs.length ≤ limit) : bs'.length ≤ limit := by
  cases h with
  | text | leaf | elseIf => exact hbs
  | head tag h => exact h
  | otherwise => exact hbs
  | ending =>
    rw [List.length_cons] at hbs
    omega

theorem Leaves.length_le {limit : Nat} {bs bs' : List Pending} {pieces : List Piece}
    (h : Leaves limit bs pieces bs') (hbs : bs.length ≤ limit) : bs'.length ≤ limit := by
  induction h with
  | nil => exact hbs
  | cons hturns _ ih => exact ih (hturns.length_le hbs)

/-- A block that a piece leaves open was open before, or the piece is its head. -/
theorem Piece.Turns.cases_of_mem {limit : Nat} {bs above outer : List Pending} {b : Pending}
    {piece : Piece} (h : piece.Turns limit bs (above ++ b :: outer)) :
    (∃ above' b', bs = above' ++ b' :: outer ∧ b'.opener = b.opener ∧ b'.kind = b.kind) ∨
      ∃ tag, piece = .head tag ∧ bs = outer ∧ above = [] ∧
        b = ⟨tag.opener.1.position, tag.inside.kind, false⟩ := by
  generalize hbehind : above ++ b :: outer = bs' at h
  cases h with
  | text | leaf | elseIf => exact .inl ⟨above, b, hbehind.symm, rfl, rfl⟩
  | head tag =>
    cases above with
    | nil =>
      obtain ⟨rfl, rfl⟩ := List.cons.inj hbehind
      exact .inr ⟨tag, rfl, rfl, rfl, rfl⟩
    | cons x above =>
      obtain ⟨-, rfl⟩ := List.cons.inj hbehind
      exact .inl ⟨above, b, rfl, rfl, rfl⟩
  | otherwise opener bs tag =>
    cases above with
    | nil =>
      obtain ⟨rfl, rfl⟩ := List.cons.inj hbehind
      exact .inl ⟨[], ⟨opener, .ifBlock, false⟩, rfl, rfl, rfl⟩
    | cons x above =>
      obtain ⟨-, rfl⟩ := List.cons.inj hbehind
      exact .inl ⟨⟨opener, .ifBlock, false⟩ :: above, b, rfl, rfl, rfl⟩
  | ending b' bs tag => exact .inl ⟨b' :: above, b, by rw [← hbehind]; rfl, rfl, rfl⟩

theorem Leaves.cases_of_cons {limit : Nat} {bs outer : List Pending} {b : Pending}
    {pieces : List Piece} (h : Leaves limit bs pieces (b :: outer)) :
    (∃ above b', bs = above ++ b' :: outer ∧ b'.opener = b.opener ∧ b'.kind = b.kind) ∨
      ∃ before tag behind, pieces = before ++ .head tag :: behind ∧ Leaves limit bs before outer ∧
        Leaves limit (⟨tag.opener.1.position, tag.inside.kind, false⟩ :: outer) behind
          (b :: outer) ∧
        tag.opener.1.position = b.opener ∧ tag.inside.kind = b.kind := by
  generalize hopen : b :: outer = bs' at h
  induction h with
  | nil bs => exact .inl ⟨[], b, hopen.symm, rfl, rfl⟩
  | @cons _ _ _ piece pieces hturns hrest ih =>
    -- The block is traced down the stack from the last piece to its head.
    obtain ⟨above, b', rfl, hopener, hkind⟩ | ⟨before, tag, behind, rfl, hbefore, hhead⟩ := ih hopen
    · obtain ⟨above', b'', rfl, hopener', hkind'⟩ | ⟨tag, rfl, rfl, rfl, rfl⟩ := hturns.cases_of_mem
      · exact .inl ⟨above', b'', rfl, hopener'.trans hopener, hkind'.trans hkind⟩
      · exact .inr ⟨[], tag, pieces, rfl, .nil _, hrest, hopener, hkind⟩
    · exact .inr ⟨piece :: before, tag, behind, rfl, .cons hturns hbefore, hhead⟩

/-- Where a row leaves blocks open, the head of the innermost one stands in it, behind pieces that
leave the others open. -/
theorem Leaves.exists_head {limit : Nat} {pieces : List Piece} {b : Pending} {outer : List Pending}
    (h : Leaves limit [] pieces (b :: outer)) :
    ∃ before tag behind, pieces = before ++ .head tag :: behind ∧ Leaves limit [] before outer ∧
      Leaves limit (⟨tag.opener.1.position, tag.inside.kind, false⟩ :: outer) behind (b :: outer) ∧
      tag.opener.1.position = b.opener ∧ tag.inside.kind = b.kind := by
  obtain ⟨above, b', hnil, -⟩ | hhead := h.cases_of_cons
  · simp at hnil
  · exact hhead

def BlockState.hasElse : BlockState → Bool
  | .otherwise .. => true
  | _ => false

def OpenBlock.pending (b : OpenBlock) : Pending := ⟨b.opener, b.state.kind, b.state.hasElse⟩

namespace Assembly

open TokenStream (next prepend)

/-- The open blocks without the nodes that are read so far. -/
def pending (a : Assembly) : List Pending := a.blocks.map OpenBlock.pending

theorem length_pending (a : Assembly) : a.pending.length = a.blocks.length := List.length_map _

theorem exists_branch_of_pending {b : OpenBlock} {opener : Position}
    (h : b.pending = ⟨opener, .ifBlock, false⟩) :
    ∃ position condition earlier around,
      b = ⟨opener, .branch position condition earlier, around⟩ := by
  obtain ⟨opener', state, around⟩ := b
  obtain ⟨rfl, hkind, helse⟩ := (Pending.mk.injEq ..).mp h
  cases state with
  | branch position condition earlier => exact ⟨position, condition, earlier, around, rfl⟩
  | otherwise => cases helse
  | loop | binding => cases hkind

/-- The state of a block whose head has been read. -/
def headState (position : Position) : HeadPhrase → BlockState
  | .condition p => .branch position p.condition.path []
  | .block p => blockState p

theorem pending_opened (a : Assembly) (position : Position) (p : HeadPhrase) (strips : Bool) :
    (Assembly.mk (⟨position, headState position p, a.nodes⟩ :: a.blocks) [] strips).pending =
      ⟨position, p.kind, false⟩ :: a.pending := by
  cases p with
  | condition => rfl
  | block p => cases p <;> rfl

theorem addDirective_head (limit : Int) (a : Assembly) (position : Position) (p : HeadPhrase)
    (closer : Token) :
    a.addDirective limit position p.directive closer =
      a.openBlock limit position (headState position p) closer := by
  cases p with
  | condition => rfl
  | block p => exact addDirective_block limit a position p closer

theorem exists_addDirective_leaf (limit : Int) (a : Assembly) (position : Position) (p : LeafPiece)
    (closer : Token) :
    ∃ node, a.addDirective limit position p.directive closer = .ok (a.add node closer) := by
  cases p with
  | comment | value | call => exact ⟨_, rfl⟩

theorem prepend_lone_tag {α : Type} (inner : α → List Token) (tag : Tag α) (s : TokenStream) :
    s.prepend (tag.tokens inner) =
      next tag.opener.1 ((next tag.closer.1 s).prepend (inner tag.inside)) := by
  simpa using prepend_tag inner tag [] s

section Run

variable {limit : Int} {a : Assembly} {s : TokenStream}

theorem exists_step_of_turns {piece : Piece} {bs : List Pending}
    (h : piece.Turns limit.toNat a.pending bs) :
    ∃ t s' a', s.prepend piece.tokens = next t s' ∧ a.step limit t s' = .ok (a', s) ∧
      a'.pending = bs := by
  obtain ⟨blocks, nodes, strips⟩ := a
  generalize hpending : (Assembly.mk blocks nodes strips).pending = bs₀ at h
  cases h with
  | text _ t =>
    refine ⟨t.1, s, (Assembly.mk blocks nodes strips).addText t.1 s, rfl, by simp [step, t.2], ?_⟩
    rw [addText_eq]
    exact hpending
  | leaf _ tag =>
    obtain ⟨node, hadd⟩ := exists_addDirective_leaf limit ⟨blocks, nodes, strips⟩
      tag.opener.1.position tag.inside tag.closer.1
    have hstep := step_of_readDirective limit ⟨blocks, nodes, strips⟩ tag.opener
      (TokenStream.readDirective_leaf (s := s) tag.inside tag.closer)
    rw [hadd] at hstep
    exact ⟨_, _, _, prepend_lone_tag LeafPiece.tokens tag s, hstep, hpending⟩
  | head tag hlimit =>
    have hopen : blocks.length + 1 ≤ limit.toNat := by
      rw [← hpending, length_pending] at hlimit
      exact hlimit
    have hstep := step_of_readDirective limit ⟨blocks, nodes, strips⟩ tag.opener
      (TokenStream.readDirective_head (s := s) tag.inside tag.closer)
    rw [addDirective_head, openBlock_of_le hopen] at hstep
    refine ⟨_, _, _, prepend_lone_tag HeadPhrase.tokens tag s, hstep, ?_⟩
    rw [← hpending]
    exact pending_opened _ _ _ _
  | elseIf opener bs tag =>
    obtain ⟨b, outer, rfl, hb, rfl⟩ := List.map_eq_cons_iff.mp hpending
    obtain ⟨position, condition, earlier, around, rfl⟩ := exists_branch_of_pending hb
    exact ⟨_, _, _, prepend_elseIf tag s, step_elseIf _ _ _ _ _ _ _ _ _ _ _, rfl⟩
  | otherwise opener bs tag =>
    obtain ⟨b, outer, rfl, hb, rfl⟩ := List.map_eq_cons_iff.mp hpending
    obtain ⟨position, condition, earlier, around, rfl⟩ := exists_branch_of_pending hb
    exact ⟨_, _, _, rfl, step_otherwise _ _ _ _ _ _ _ _ _ _ _, rfl⟩
  | ending b bs tag =>
    obtain ⟨b', outer, rfl, rfl, rfl⟩ := List.map_eq_cons_iff.mp hpending
    exact ⟨_, _, _, rfl, step_ending limit b' outer nodes strips tag rfl s, rfl⟩

/-- A row of pieces is gone through, and the blocks it leaves are open then. -/
theorem exists_reaches_of_leaves {pieces : List Piece} {bs : List Pending}
    (h : Leaves limit.toNat a.pending pieces bs) :
    ∃ a', Reaches limit a (s.prepend (pieces.flatMap Piece.tokens)) a' s ∧ a'.pending = bs := by
  generalize hpending : a.pending = bs₀ at h
  induction h generalizing a with
  | nil => exact ⟨a, .refl, hpending⟩
  | @cons _ _ _ piece pieces hturns hrest ih =>
    subst hpending
    obtain ⟨t, s', a₁, htokens, hstep, hpending₁⟩ :=
      exists_step_of_turns (s := s.prepend (pieces.flatMap Piece.tokens)) hturns
    obtain ⟨a₂, hreaches, hpending₂⟩ := ih hpending₁
    refine ⟨a₂, ?_, hpending₂⟩
    rw [List.flatMap_cons, TokenStream.prepend_append, htokens]
    exact .step hstep hreaches

end Run

end Assembly

/-- The parser gets as far as a row of pieces leads it, and goes on from there. -/
theorem Template.exists_ofTokens_run {tokens more : List Token} {pieces : List Piece}
    {bs : List Pending} {limit : Int} (name : String)
    (htokens : tokensRead tokens = pieces.flatMap Piece.tokens ++ more)
    (h : Leaves limit.toNat [] pieces bs) :
    ∃ (a : Assembly) (position : Position), a.pending = bs ∧
      ∀ e, ofTokens tokens name limit = .error e ↔
        a.run limit ((TokenStream.ended position).prepend more) = .error e := by
  obtain ⟨position, hstream⟩ := TokenStream.exists_ofTokens_eq .start tokens
  have hpieces : TokenStream.ofList tokens =
      ((TokenStream.ended position).prepend more).prepend (pieces.flatMap Piece.tokens) := by
    rw [TokenStream.ofList, hstream, htokens, TokenStream.prepend_append]
  obtain ⟨a, hreaches, hpending⟩ := Assembly.exists_reaches_of_leaves (a := .start)
    (s := (TokenStream.ended position).prepend more) h
  refine ⟨a, position, hpending, fun e => ?_⟩
  rw [ofTokens_eq_error_iff, hpieces, hreaches.run_eq]

section Sample

/-! An if-block whose last part has begun, and the head of a loop in that part. -/

def sampleIf : Tag HeadPhrase :=
  ⟨⟨⟨.opener, "\x7b\x7b", ⟨0, 1, 1⟩⟩, rfl⟩,
    .condition ⟨⟨⟨.keyword .ifWord, "if", ⟨3, 1, 4⟩⟩, rfl⟩,
      ⟨⟨⟨.atSign, "@", ⟨6, 1, 7⟩⟩, .inl rfl⟩, []⟩⟩,
    ⟨⟨.closer, "\x7d\x7d", ⟨8, 1, 9⟩⟩, rfl⟩⟩

def sampleElse : WordTag .elseWord :=
  ⟨⟨⟨.opener, "\x7b\x7b", ⟨10, 1, 11⟩⟩, rfl⟩, ⟨⟨.keyword .elseWord, "else", ⟨13, 1, 14⟩⟩, rfl⟩,
    ⟨⟨.closer, "\x7d\x7d", ⟨18, 1, 19⟩⟩, rfl⟩⟩

def sampleLoop : Tag HeadPhrase :=
  ⟨⟨⟨.opener, "\x7b\x7b", ⟨20, 1, 21⟩⟩, rfl⟩,
    .block (.loop ⟨⟨⟨.keyword .forWord, "for", ⟨23, 1, 24⟩⟩, rfl⟩,
      ⟨⟨.identifier, "x", ⟨27, 1, 28⟩⟩, rfl⟩, none,
      ⟨⟨.keyword .inWord, "in", ⟨29, 1, 30⟩⟩, rfl⟩,
      ⟨⟨⟨.atSign, "@", ⟨32, 1, 33⟩⟩, .inl rfl⟩, []⟩⟩),
    ⟨⟨.closer, "\x7d\x7d", ⟨34, 1, 35⟩⟩, rfl⟩⟩

def samplePieces : List Piece := [.head sampleIf, .otherwise sampleElse]

theorem leaves_sample {limit : Nat} (h : 0 < limit) :
    Leaves limit [] samplePieces [⟨⟨0, 1, 1⟩, .ifBlock, true⟩] :=
  .cons (.head sampleIf h) (.cons (.otherwise _ [] sampleElse) (.nil _))

theorem leaves_sample_loop {limit : Nat} (h : 1 < limit) :
    Leaves limit [] (samplePieces ++ [.head sampleLoop])
      [⟨⟨20, 1, 21⟩, .forBlock, false⟩, ⟨⟨0, 1, 1⟩, .ifBlock, true⟩] :=
  .cons (.head sampleIf (Nat.zero_lt_of_lt h)) (.cons (.otherwise _ [] sampleElse)
    (.cons (.head sampleLoop h) (.nil _)))

end Sample

end TextTemplate
