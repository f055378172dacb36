import TextTemplate.Proofs.Grammar.Content
import TextTemplate.Proofs.Grammar.Reading

/-! Assembling the tokens of a content adds its nodes to the innermost list, wherever the content
stands. -/

namespace TextTemplate

/-- Whether the text behind the content is stripped at its front. -/
def Content.strips (before : Bool) : Content → Bool
  | .nil => before
  | .text _ rest => rest.strips false
  | .leaf tag rest => rest.strips tag.closer.1.trims
  | .ifBlock _ _ branches rest => rest.strips branches.trimsBehind
  | .block _ _ ending rest => rest.strips ending.closer.1.trims

section Edges

theorem Content.nodes_eq_of_head {c : Content} (h : ∀ t ∈ c.tokens.head?, t.kind ≠ .text)
    (before before' behind : Bool) : c.nodes before behind = c.nodes before' behind := by
  cases c with
  | text t => exact absurd t.2 (h t.1 rfl)
  | nil | leaf | ifBlock | block => rfl

theorem forall_getLast?_of_append {α : Type} {P : α → Prop} {xs ys : List α}
    (h : ∀ x ∈ (xs ++ ys).getLast?, P x) : ∀ x ∈ ys.getLast?, P x := by
  intro x hx
  refine h x ?_
  rw [List.getLast?_append, hx]
  rfl

theorem opensTrimming_eq {tokens : List Token} (h : tokens ≠ []) (behind behind' : Bool) :
    opensTrimming behind tokens = opensTrimming behind' tokens := by
  cases tokens with
  | nil => exact absurd rfl h
  | cons => rfl

theorem Content.nodes_eq_of_last {c : Content} (h : ∀ t ∈ c.tokens.getLast?, t.kind ≠ .text)
    (before behind behind' : Bool) : c.nodes before behind = c.nodes before behind' := by
  match c with
  | .nil => rfl
  | .text t rest =>
    have hrest : rest.tokens ≠ [] := by
      intro hnil
      refine h t.1 ?_ t.2
      rw [Content.tokens, hnil]
      rfl
    rw [Content.nodes, Content.nodes, opensTrimming_eq hrest behind behind',
      nodes_eq_of_last (@forall_getLast?_of_append _ _ [t.1] _ h) _ behind behind']
  | .leaf tag rest =>
    rw [Content.nodes, Content.nodes,
      nodes_eq_of_last (forall_getLast?_of_append h) _ behind behind']
  | .ifBlock head body branches rest =>
    have hrest := forall_getLast?_of_append (forall_getLast?_of_append
      (forall_getLast?_of_append h))
    rw [Content.nodes, Content.nodes, nodes_eq_of_last hrest _ behind behind']
  | .block head body ending rest =>
    have hrest := forall_getLast?_of_append (forall_getLast?_of_append
      (forall_getLast?_of_append h))
    rw [Content.nodes, Content.nodes, nodes_eq_of_last hrest _ behind behind']

theorem IfRest.exists_closer (branches : IfRest) :
    ∃ front closer, branches.tokens = front ++ [closer] ∧
      branches.trimsBehind = closer.trims := by
  match branches with
  | .ended ending => exact ⟨[ending.opener.1, ending.inside.1], ending.closer.1, rfl, rfl⟩
  | .elseIf tag body rest =>
    obtain ⟨front, closer, htokens, htrims⟩ := IfRest.exists_closer rest
    refine ⟨tag.tokens ++ (body.tokens ++ front), closer, ?_, htrims⟩
    simp [IfRest.tokens, htokens]
  | .otherwise tag body ending =>
    refine ⟨tag.tokens ++ (body.tokens ++ [ending.opener.1, ending.inside.1]), ending.closer.1,
      ?_, rfl⟩
    simp [IfRest.tokens, WordTag.tokens, Tag.tokens]

theorem trims_getLast? (front rest : List Token) (t : Token) (before : Bool) :
    (((front ++ t :: rest).getLast?).map Token.trims).getD before =
      (rest.getLast?.map Token.trims).getD t.trims := by
  rw [List.getLast?_append, List.getLast?_cons]
  cases rest.getLast? <;> rfl

theorem Content.strips_eq (c : Content) (before : Bool) :
    c.strips before = (c.tokens.getLast?.map Token.trims).getD before := by
  match c with
  | .nil => rfl
  | .text t rest =>
    have htrims : t.1.trims = false := by simp [Token.trims, t.2]
    rw [Content.strips, Content.tokens, Content.strips_eq rest, ← htrims]
    exact (trims_getLast? [] rest.tokens t.1 before).symm
  | .leaf tag rest =>
    have htokens : (Content.leaf tag rest).tokens =
        (tag.opener.1 :: tag.inside.tokens) ++ tag.closer.1 :: rest.tokens := by
      simp [Content.tokens, Tag.tokens]
    rw [Content.strips, Content.strips_eq rest, htokens, trims_getLast?]
  | .ifBlock head body branches rest =>
    obtain ⟨front, closer, hbranches, htrims⟩ := branches.exists_closer
    have htokens : (Content.ifBlock head body branches rest).tokens =
        (head.tokens IfPhrase.tokens ++ (body.tokens ++ front)) ++ closer :: rest.tokens := by
      simp [Content.tokens, hbranches]
    rw [Content.strips, Content.strips_eq rest, htokens, trims_getLast?, htrims]
  | .block head body ending rest =>
    have htokens : (Content.block head body ending rest).tokens =
        (head.tokens BlockPhrase.tokens ++ (body.tokens ++ [ending.opener.1, ending.inside.1])) ++
          ending.closer.1 :: rest.tokens := by
      simp [Content.tokens, WordTag.tokens, Tag.tokens]
    rw [Content.strips, Content.strips_eq rest, htokens, trims_getLast?]

end Edges

namespace Assembly

open TokenStream (next prepend)

/-- The assembly behind a content in its innermost list. -/
def after (a : Assembly) (c : Content) (behind : Bool) : Assembly :=
  { a with
    nodes := (c.nodes a.strips behind).reverse ++ a.nodes
    strips := c.strips a.strips }

theorem beginsWithTrimmingOpener_prepend (tokens : List Token) (s : TokenStream) :
    beginsWithTrimmingOpener (s.prepend tokens) =
      opensTrimming (beginsWithTrimmingOpener s) tokens := by
  cases tokens <;> rfl

theorem run_next (limit : Int) (a : Assembly) (t : Token) (s : TokenStream) :
    a.run limit (next t s) = a.step limit t s >>= fun result => result.1.run limit result.2 := by
  rw [run]
  split
  · rename_i hstep
    simp [hstep]
  · rename_i hstep
    simp [hstep]

theorem addText_eq (a : Assembly) (t : Token) (s : TokenStream) :
    a.addText t s =
      { a with
        nodes := (textNodes t a.strips (beginsWithTrimmingOpener s)).reverse ++ a.nodes
        strips := false } := by
  have hstripped : a.addText t s =
      { a with
        nodes :=
          if strippedText t.value a.strips (beginsWithTrimmingOpener s) = "" then a.nodes
          else .text t.position (strippedText t.value a.strips (beginsWithTrimmingOpener s)) ::
            a.nodes
        strips := false } := rfl
  rw [hstripped, textNodes]
  split <;> rfl

theorem closingWord?_closer {word : Keyword} (h : word.isCloser = true) :
    closingWord? (.keyword word) = some word := by
  simp [closingWord?, h]

theorem eq_keyword_of_closingWord? {kind : TokenKind} {word : Keyword}
    (h : closingWord? kind = some word) : kind = .keyword word := by
  unfold closingWord? at h
  split at h
  · split at h <;> simp_all
  · cases h

theorem exists_first_token (p : DirectivePhrase) :
    ∃ t tokens, p.tokens = t :: tokens ∧ closingWord? t.kind = none := by
  cases p with
  | leaf p =>
    cases p with
    | comment t => exact ⟨t.1, [], rfl, by rw [t.2]; rfl⟩
    | value p =>
      refine ⟨p.path.head.1, _, rfl, ?_⟩
      rcases p.path.head.2 with hhead | hhead <;> rw [hhead] <;> rfl
    | call p => exact ⟨p.word.1, _, rfl, by rw [p.word.2]; rfl⟩
  | condition p => exact ⟨p.word.1, _, rfl, by rw [p.word.2]; rfl⟩
  | block p =>
    cases p with
    | loop p => exact ⟨p.word.1, _, rfl, by rw [p.word.2]; rfl⟩
    | binding p => exact ⟨p.word.1, _, rfl, by rw [p.word.2]; rfl⟩

/-- No directive begins with a closing word. -/
theorem closingWord?_of_readDirective {t : Token} {s : TokenStream}
    {result : Directive × TokenStream} (h : (next t s).readDirective = .ok result) :
    closingWord? t.kind = none := by
  cases hword : closingWord? t.kind with
  | none => rfl
  | some word =>
    have hkind := eq_keyword_of_closingWord? hword
    rw [hkind] at hword
    cases word <;> simp_all [TokenStream.readDirective, TokenStream.readValue,
      TokenStream.readPath, closingWord?, Keyword.isCloser]

theorem step_of_readDirective (limit : Int) (a : Assembly) (opener : Terminal .opener)
    {d : Directive} {closer : Terminal .closer} {s r : TokenStream}
    (h : s.readDirective = .ok (d, next closer.1 r)) :
    a.step limit opener.1 s =
      a.addDirective limit opener.1.position d closer.1 >>= fun a' => .ok (a', r) := by
  have hdirective : a.stepDirective limit opener.1.position s =
      a.addDirective limit opener.1.position d closer.1 >>= fun a' => .ok (a', r) := by
    simp [stepDirective, h]
  rw [← hdirective, step, opener.2]
  cases s with
  | next t s => simp [stepOpener, closingWord?_of_readDirective h]
  | ended | broken => rfl

theorem step_directive (limit : Int) (a : Assembly) (tag : Tag DirectivePhrase) (s : TokenStream) :
    a.step limit tag.opener.1 ((next tag.closer.1 s).prepend tag.inside.tokens) =
      a.addDirective limit tag.opener.1.position tag.inside.directive tag.closer.1 >>=
        fun a' => .ok (a', s) :=
  step_of_readDirective limit a tag.opener (TokenStream.readDirective_prepend tag.inside tag.closer)

theorem step_word (limit : Int) (a : Assembly) (opener : Terminal .opener) {word : Keyword}
    (t : Terminal (.keyword word)) (s : TokenStream) (h : word.isCloser = true) :
    a.step limit opener.1 (next t.1 s) = a.addCloser word t.1 s := by
  simp [step, opener.2, stepOpener, t.2, closingWord?_closer h]

theorem run_directive (limit : Int) (a : Assembly) (opener : Terminal .opener)
    (p : DirectivePhrase) (closer : Terminal .closer) (s : TokenStream) :
    a.run limit (next opener.1 ((next closer.1 s).prepend p.tokens)) =
      a.addDirective limit opener.1.position p.directive closer.1 >>= fun a' => a'.run limit s := by
  rw [run_next, step_directive limit a ⟨opener, p, closer⟩ s]
  cases a.addDirective limit opener.1.position p.directive closer.1 <;> rfl

theorem addDirective_leaf (limit : Int) (a : Assembly) (position : Position) (p : LeafPhrase)
    (closer : Token) :
    a.addDirective limit position p.directive closer = .ok (a.add (p.node position) closer) := by
  cases p <;> rfl

theorem openBlock_of_le {limit : Int} {a : Assembly} (h : a.blocks.length + 1 ≤ limit.toNat)
    (opener : Position) (state : BlockState) (closer : Token) :
    a.openBlock limit opener state closer =
      .ok ⟨⟨opener, state, a.nodes⟩ :: a.blocks, [], closer.trims⟩ := by
  rw [openBlock, if_neg (by omega)]

def blockState : BlockPhrase → BlockState
  | .loop p => .loop p.item.1.value (p.index.map (·.2.1.value)) p.source.path
  | .binding p => .binding p.source.path p.name.1.value

theorem kind_blockState (p : BlockPhrase) : (blockState p).kind = p.kind := by
  cases p <;> rfl

theorem addDirective_block (limit : Int) (a : Assembly) (position : Position) (p : BlockPhrase)
    (closer : Token) :
    a.addDirective limit position p.directive closer =
      a.openBlock limit position (blockState p) closer := by
  cases p <;> rfl

theorem finished_blockState (position : Position) (p : BlockPhrase) (around nodes : List Node) :
    finished ⟨position, blockState p, around⟩ nodes = p.node position nodes := by
  cases p <;> rfl

theorem addCloser_closer (b : OpenBlock) (outer : List OpenBlock) (nodes : List Node)
    (strips : Bool) {word : Keyword} (hword : word = b.state.kind.closer) (t : Token)
    (s : TokenStream) :
    (Assembly.mk (b :: outer) nodes strips).addCloser word t s =
      (Assembly.mk (b :: outer) nodes strips).closeBlock b outer s := by
  subst hword
  cases h : b.state <;> simp [addCloser, h, BlockState.kind, BlockKind.closer]

theorem isCloser_closer (kind : BlockKind) : kind.closer.isCloser = true := by
  cases kind <;> rfl

theorem step_ending (limit : Int) (b : OpenBlock) (outer : List OpenBlock) (nodes : List Node)
    (strips : Bool) {word : Keyword} (ending : WordTag word) (hword : word = b.state.kind.closer)
    (s : TokenStream) :
    (Assembly.mk (b :: outer) nodes strips).step limit ending.opener.1
      (next ending.inside.1 (next ending.closer.1 s)) =
    .ok (⟨outer, finished b nodes.reverse :: b.around, ending.closer.1.trims⟩, s) := by
  have hcloser : word.isCloser = true := hword ▸ isCloser_closer _
  rw [step_word _ _ _ _ _ hcloser, addCloser_closer b outer _ _ hword]
  simp [closeBlock]

theorem run_ending (limit : Int) (b : OpenBlock) (outer : List OpenBlock) (nodes : List Node)
    (strips : Bool) {word : Keyword} (ending : WordTag word) (hword : word = b.state.kind.closer)
    (s : TokenStream) :
    (Assembly.mk (b :: outer) nodes strips).run limit (s.prepend ending.tokens) =
      (Assembly.mk outer (finished b nodes.reverse :: b.around) ending.closer.1.trims).run limit
        s := by
  have htokens : s.prepend ending.tokens =
      next ending.opener.1 (next ending.inside.1 (next ending.closer.1 s)) := rfl
  rw [htokens, run_next, step_ending limit b outer nodes strips ending hword s]
  rfl

theorem prepend_elseIf (tag : ElseIfTag) (s : TokenStream) :
    s.prepend tag.tokens =
      next tag.opener.1 (next tag.inside.1.1 (next tag.inside.2.word.1
        ((next tag.closer.1 s).prepend tag.inside.2.condition.tokens))) := by
  simp [ElseIfTag.tokens, Tag.tokens, IfPhrase.tokens, TokenStream.prepend_append]

theorem step_elseIf (limit : Int) (opener position : Position) (condition : Path)
    (earlier : List Branch) (around nodes : List Node) (outer : List OpenBlock) (strips : Bool)
    (tag : ElseIfTag) (s : TokenStream) :
    (Assembly.mk (⟨opener, .branch position condition earlier, around⟩ :: outer) nodes strips).step
      limit tag.opener.1 (next tag.inside.1.1 (next tag.inside.2.word.1
        ((next tag.closer.1 s).prepend tag.inside.2.condition.tokens))) =
    .ok (⟨⟨opener, .branch tag.inside.1.1.position tag.inside.2.condition.path
      (⟨position, condition, nodes.reverse⟩ :: earlier), around⟩ :: outer, [],
      tag.closer.1.trims⟩, s) := by
  have hpath := TokenStream.readPath_prepend tag.inside.2.condition (s := next tag.closer.1 s)
    (by simp [tag.closer.2])
  rw [step_word _ _ _ _ _ rfl]
  simp [addCloser, continueIf, hpath]

theorem run_elseIf (limit : Int) (opener position : Position) (condition : Path)
    (earlier : List Branch) (around nodes : List Node) (outer : List OpenBlock) (strips : Bool)
    (tag : ElseIfTag) (s : TokenStream) :
    (Assembly.mk (⟨opener, .branch position condition earlier, around⟩ :: outer) nodes strips).run
      limit (s.prepend tag.tokens) =
    (Assembly.mk (⟨opener, .branch tag.inside.1.1.position tag.inside.2.condition.path
      (⟨position, condition, nodes.reverse⟩ :: earlier), around⟩ :: outer) []
      tag.closer.1.trims).run limit s := by
  rw [prepend_elseIf, run_next, step_elseIf]
  rfl

theorem step_otherwise (limit : Int) (opener position : Position) (condition : Path)
    (earlier : List Branch) (around nodes : List Node) (outer : List OpenBlock) (strips : Bool)
    (tag : WordTag .elseWord) (s : TokenStream) :
    (Assembly.mk (⟨opener, .branch position condition earlier, around⟩ :: outer) nodes strips).step
      limit tag.opener.1 (next tag.inside.1 (next tag.closer.1 s)) =
    .ok (⟨⟨opener, .otherwise ⟨position, condition, nodes.reverse⟩ earlier, around⟩ :: outer, [],
      tag.closer.1.trims⟩, s) := by
  have hlacks : (next tag.closer.1 s).Lacks [.keyword .ifWord] := by simp [tag.closer.2]
  have haccept := TokenStream.accept_of_lacks (.keyword .ifWord) hlacks (by simp)
  rw [step_word _ _ _ _ _ rfl]
  simp [addCloser, continueIf, haccept]

theorem run_otherwise (limit : Int) (opener position : Position) (condition : Path)
    (earlier : List Branch) (around nodes : List Node) (outer : List OpenBlock) (strips : Bool)
    (tag : WordTag .elseWord) (s : TokenStream) :
    (Assembly.mk (⟨opener, .branch position condition earlier, around⟩ :: outer) nodes strips).run
      limit (s.prepend tag.tokens) =
    (Assembly.mk (⟨opener, .otherwise ⟨position, condition, nodes.reverse⟩ earlier, around⟩ ::
      outer) [] tag.closer.1.trims).run limit s := by
  have htokens : s.prepend tag.tokens =
      next tag.opener.1 (next tag.inside.1 (next tag.closer.1 s)) := rfl
  rw [htokens, run_next, step_otherwise]
  rfl

theorem prepend_tag {α : Type} (inner : α → List Token) (tag : Tag α) (more : List Token)
    (s : TokenStream) :
    s.prepend (tag.tokens inner ++ more) =
      next tag.opener.1 ((next tag.closer.1 (s.prepend more)).prepend (inner tag.inside)) := by
  simp [Tag.tokens, TokenStream.prepend_append]

theorem opensTrimming_rest (behind : Bool) (branches : IfRest) (more : List Token) :
    opensTrimming behind (branches.tokens ++ more) = branches.trimsBefore := by
  cases branches with
  | ended tag | otherwise tag =>
    simp [IfRest.tokens, IfRest.trimsBefore, WordTag.tokens, Tag.tokens, opensTrimming,
      tag.opener.2]
  | elseIf tag =>
    simp [IfRest.tokens, IfRest.trimsBefore, ElseIfTag.tokens, Tag.tokens, opensTrimming,
      tag.opener.2]

theorem opensTrimming_ending {word : Keyword} (behind : Bool) (ending : WordTag word)
    (more : List Token) :
    opensTrimming behind (ending.tokens ++ more) = ending.opener.1.trims := by
  simp [WordTag.tokens, Tag.tokens, opensTrimming, ending.opener.2]

mutual

theorem run_content (limit : Int) (c : Content) (a : Assembly) (s : TokenStream)
    (h : a.blocks.length + c.mostOpen ≤ limit.toNat) :
    a.run limit (s.prepend c.tokens) =
      (a.after c (beginsWithTrimmingOpener s)).run limit s := by
  -- Whether the last text is stripped depends on the first token behind the content only.
  match c with
  | .nil => rfl
  | .text t rest =>
    simp only [Content.mostOpen] at h
    rw [Content.tokens, TokenStream.prepend_cons, run_next]
    simp only [step, t.2, Attempt.ok_bind]
    rw [run_content limit rest _ s (by simpa [addText_eq] using h), addText_eq]
    simp [after, Content.nodes, Content.strips, beginsWithTrimmingOpener_prepend]
  | .leaf tag rest =>
    simp only [Content.mostOpen] at h
    have hrun := run_directive limit a tag.opener (.leaf tag.inside) tag.closer
      (s.prepend rest.tokens)
    have hrest := run_content limit rest (a.add (tag.inside.node tag.opener.1.position) tag.closer)
      s h
    rw [Content.tokens, prepend_tag]
    refine hrun.trans ?_
    rw [DirectivePhrase.directive, addDirective_leaf, Attempt.ok_bind, hrest]
    simp [after, add, Content.nodes, Content.strips]
  | .ifBlock head body branches rest =>
    simp only [Content.mostOpen] at h
    have hrun := run_directive limit a head.opener (.condition head.inside) head.closer
      (s.prepend (body.tokens ++ (branches.tokens ++ rest.tokens)))
    rw [Content.tokens, prepend_tag]
    refine hrun.trans ?_
    rw [DirectivePhrase.directive, addDirective, openBlock_of_le (by omega), Attempt.ok_bind,
      TokenStream.prepend_append, run_content limit body _ _ (by simp; omega),
      beginsWithTrimmingOpener_prepend, opensTrimming_rest, TokenStream.prepend_append, after,
      run_rest limit branches _ _ _ _ _ _ _ _ _ (by omega),
      run_content limit rest _ s (by simp; omega)]
    simp [after, Content.nodes, Content.strips, ifChain]
  | .block head body ending rest =>
    simp only [Content.mostOpen] at h
    have hrun := run_directive limit a head.opener (.block head.inside) head.closer
      (s.prepend (body.tokens ++ (ending.tokens ++ rest.tokens)))
    rw [Content.tokens, prepend_tag]
    refine hrun.trans ?_
    rw [DirectivePhrase.directive, addDirective_block, openBlock_of_le (by omega),
      Attempt.ok_bind, TokenStream.prepend_append, run_content limit body _ _ (by simp; omega),
      beginsWithTrimmingOpener_prepend, opensTrimming_ending, TokenStream.prepend_append, after,
      run_ending limit _ _ _ _ ending (by rw [kind_blockState]), finished_blockState,
      run_content limit rest _ s (by simp; omega)]
    simp [after, Content.nodes, Content.strips]

theorem run_rest (limit : Int) (branches : IfRest) (opener position : Position) (condition : Path)
    (earlier : List Branch) (around nodes : List Node) (outer : List OpenBlock) (strips : Bool)
    (s : TokenStream) (h : outer.length + 1 + branches.mostOpen ≤ limit.toNat) :
    (Assembly.mk (⟨opener, .branch position condition earlier, around⟩ :: outer) nodes strips).run
      limit (s.prepend branches.tokens) =
    (Assembly.mk outer (ifChain ⟨position, condition, nodes.reverse⟩ earlier
      branches.otherwiseNodes :: around) branches.trimsBehind).run limit s := by
  match branches with
  | .ended ending => exact run_ending limit _ _ _ _ ending rfl s
  | .elseIf tag body rest =>
    simp only [IfRest.mostOpen] at h
    rw [IfRest.tokens, TokenStream.prepend_append, run_elseIf, TokenStream.prepend_append,
      run_content limit body _ _ (by simp; omega), beginsWithTrimmingOpener_prepend, after]
    have hrest := opensTrimming_rest (beginsWithTrimmingOpener s) rest []
    rw [List.append_nil] at hrest
    rw [hrest, run_rest limit rest _ _ _ _ _ _ _ _ _ (by omega)]
    simp [ifChain, IfRest.otherwiseNodes, IfRest.trimsBehind]
  | .otherwise tag body ending =>
    simp only [IfRest.mostOpen] at h
    rw [IfRest.tokens, TokenStream.prepend_append, run_otherwise, TokenStream.prepend_append,
      run_content limit body _ _ (by simp; omega), beginsWithTrimmingOpener_prepend, after]
    have hending := opensTrimming_ending (beginsWithTrimmingOpener s) ending []
    rw [List.append_nil] at hending
    rw [hending, run_ending limit _ _ _ _ ending rfl]
    simp [finished, IfRest.otherwiseNodes, IfRest.trimsBehind]

end

end Assembly

end TextTemplate
