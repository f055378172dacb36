import Mathlib.Data.List.Forall2
import TextTemplate.Proofs.Grammar.Assembling
import TextTemplate.Proofs.Likeness.Reading
import TextTemplate.Proofs.Preorder

/-! Assemblies that differ in their places only stay so on streams that are alike, and build the
same nodes at corresponding places. -/

namespace TextTemplate

namespace Node

def Alike (nodes nodes' : List Node) : Prop :=
  List.Forall₂ (fun n n' => n.same n' = true) nodes nodes'

theorem sameList_iff {nodes nodes' : List Node} : sameList nodes nodes' = true ↔
    Alike nodes nodes' := by
  induction nodes generalizing nodes' with
  | nil => cases nodes' <;> simp [sameList, Alike]
  | cons n nodes ih =>
    cases nodes' with
    | nil => simp [sameList, Alike]
    | cons n' nodes' => simp [sameList, Alike, ih, List.forall₂_cons]

end Node

namespace Likeness

open Node (Alike listPreorder)

/-- The nodes are the same, and what stands in them stands at corresponding places, one node after
the other in the order of the source. -/
structure Placed (K : Likeness) (n n' : Node) : Prop where
  same : n.same n' = true
  places : List.Forall₂ (fun m m' => K.place m.position m'.position) n.preorder n'.preorder

section Placed

variable {K : Likeness} {p p' : Position} {nodes nodes' body body' : List Node}

theorem alike_of_placed (h : List.Forall₂ K.Placed nodes nodes') : Alike nodes nodes' :=
  h.imp fun _ _ hn => hn.same

theorem sameList_of_placed (h : List.Forall₂ K.Placed nodes nodes') :
    Node.sameList nodes nodes' = true :=
  Node.sameList_iff.mpr (alike_of_placed h)

theorem places_of_placed (h : List.Forall₂ K.Placed nodes nodes') :
    List.Forall₂ (fun m m' => K.place m.position m'.position) (listPreorder nodes)
      (listPreorder nodes') := by
  induction h with
  | nil => exact .nil
  | cons hn _ ih =>
    rw [listPreorder, listPreorder]
    exact List.rel_append hn.places ih

theorem Placed.text (hp : K.place p p') (text : String) :
    K.Placed (.text p text) (.text p' text) := by
  refine ⟨by simp [Node.same], ?_⟩
  rw [Node.preorder, Node.preorder]
  · exact .cons hp .nil
  all_goals simp

theorem Placed.ifBlock {otherwise otherwise' : Option (List Node)} (hp : K.place p p')
    (condition : Path) (hbody : List.Forall₂ K.Placed body body')
    (hotherwise : Option.Rel (List.Forall₂ K.Placed) otherwise otherwise') :
    K.Placed (.ifBlock p condition body otherwise) (.ifBlock p' condition body' otherwise') := by
  have hplaces := places_of_placed hbody
  cases hotherwise with
  | none =>
    refine ⟨by simp [Node.same, Node.sameOption, sameList_of_placed hbody], ?_⟩
    rw [Node.preorder, Node.preorder]
    exact .cons hp (List.rel_append hplaces .nil)
  | some hnodes =>
    refine ⟨?_, ?_⟩
    · simp [Node.same, Node.sameOption, sameList_of_placed hbody, sameList_of_placed hnodes]
    · rw [Node.preorder, Node.preorder]
      exact .cons hp (List.rel_append hplaces (places_of_placed hnodes))

theorem Placed.forBlock (hp : K.place p p') (item : String) (index : Option String) (source : Path)
    (hbody : List.Forall₂ K.Placed body body') :
    K.Placed (.forBlock p item index source body) (.forBlock p' item index source body') := by
  refine ⟨by simp [Node.same, sameList_of_placed hbody], ?_⟩
  rw [Node.preorder, Node.preorder]
  exact .cons hp (places_of_placed hbody)

theorem Placed.withBlock (hp : K.place p p') (name : String) (source : Path)
    (hbody : List.Forall₂ K.Placed body body') :
    K.Placed (.withBlock p name source body) (.withBlock p' name source body') := by
  refine ⟨by simp [Node.same, sameList_of_placed hbody], ?_⟩
  rw [Node.preorder, Node.preorder]
  exact .cons hp (places_of_placed hbody)

end Placed

structure Branches (K : Likeness) (b b' : Branch) : Prop where
  place : K.place b.position b'.position
  condition_eq : b.condition = b'.condition
  body : List.Forall₂ K.Placed b.body b'.body

inductive States (K : Likeness) : BlockState → BlockState → Prop
  | branch {position position' : Position} (condition : Path) {earlier earlier' : List Branch} :
      K.place position position' → List.Forall₂ K.Branches earlier earlier' →
      States K (.branch position condition earlier) (.branch position' condition earlier')
  | otherwise {last last' : Branch} {earlier earlier' : List Branch} : K.Branches last last' →
      List.Forall₂ K.Branches earlier earlier' →
      States K (.otherwise last earlier) (.otherwise last' earlier')
  | loop (item : String) (index : Option String) (source : Path) :
      States K (.loop item index source) (.loop item index source)
  | binding (source : Path) (name : String) :
      States K (.binding source name) (.binding source name)

inductive Blocks (K : Likeness) : OpenBlock → OpenBlock → Prop
  | mk {opener opener' : Position} {state state' : BlockState} {around around' : List Node} :
      K.place opener opener' → K.States state state' → List.Forall₂ K.Placed around around' →
      Blocks K ⟨opener, state, around⟩ ⟨opener', state', around'⟩

inductive Assemblies (K : Likeness) : Assembly → Assembly → Prop
  | mk {blocks blocks' : List OpenBlock} {nodes nodes' : List Node} (strips : Bool) :
      List.Forall₂ K.Blocks blocks blocks' → List.Forall₂ K.Placed nodes nodes' →
      Assemblies K ⟨blocks, nodes, strips⟩ ⟨blocks', nodes', strips⟩

variable {K : Likeness} {limit : Int} {a a' : Assembly} {s s' : TokenStream} {t t' : Token}

theorem Assemblies.start : K.Assemblies .start .start :=
  .mk false .nil .nil

theorem States.kind_eq {state state' : BlockState} (h : K.States state state') :
    state.kind = state'.kind := by
  cases h <;> rfl

theorem placed_ifChain {last last' : Branch} {earlier earlier' : List Branch}
    {otherwise otherwise' : Option (List Node)} (hlast : K.Branches last last')
    (hearlier : List.Forall₂ K.Branches earlier earlier')
    (hotherwise : Option.Rel (List.Forall₂ K.Placed) otherwise otherwise') :
    K.Placed (ifChain last earlier otherwise) (ifChain last' earlier' otherwise') := by
  have hfold : ∀ n n' : Node, K.Placed n n' → K.Placed
      (earlier.foldl (fun node b => .ifBlock b.position b.condition b.body (some [node])) n)
      (earlier'.foldl (fun node b => .ifBlock b.position b.condition b.body (some [node])) n') := by
    induction hearlier with
    | nil => exact fun _ _ h => h
    | @cons b b' earlier earlier' hb _ ih =>
      intro n n' hn
      refine ih _ _ ?_
      dsimp only
      rw [hb.condition_eq]
      exact .ifBlock hb.place _ hb.body (.some (.cons hn .nil))
  refine hfold _ _ ?_
  rw [hlast.condition_eq]
  exact .ifBlock hlast.place _ hlast.body hotherwise

theorem Blocks.kind_eq {b b' : OpenBlock} (h : K.Blocks b b') : b.state.kind = b'.state.kind := by
  obtain ⟨-, hstate, -⟩ := h
  exact hstate.kind_eq

theorem placed_finished {b b' : OpenBlock} {nodes nodes' : List Node} (hb : K.Blocks b b')
    (hnodes : List.Forall₂ K.Placed nodes nodes') :
    K.Placed (Assembly.finished b nodes) (Assembly.finished b' nodes') := by
  obtain ⟨hopener, hstate, -⟩ := hb
  cases hstate with
  | branch condition hp hearlier => exact placed_ifChain ⟨hp, rfl, hnodes⟩ hearlier .none
  | otherwise hlast hearlier => exact placed_ifChain hlast hearlier (.some hnodes)
  | loop item index source => exact .forBlock hopener item index source hnodes
  | binding source name => exact .withBlock hopener name source hnodes

theorem Assemblies.expected_eq (h : K.Assemblies a a') : a.expected = a'.expected := by
  obtain ⟨_, hblocks, -⟩ := h
  cases hblocks with
  | nil => rfl
  | cons hb => simp only [Assembly.expected, hb.kind_eq]

/-- Where the stream breaks off nothing is known of the token behind the text. -/
theorem beginsWithTrimmingOpener_eq (h : K.Streams s s') (hs : ∀ e, s ≠ .broken e) :
    Assembly.beginsWithTrimmingOpener s = Assembly.beginsWithTrimmingOpener s' := by
  cases h with
  | next ht =>
    rw [Assembly.beginsWithTrimmingOpener, Assembly.beginsWithTrimmingOpener, ht.kind_eq,
      ht.trims_eq]
  | ended => rfl
  | broken => exact absurd rfl (hs _)

theorem assemblies_addText (ha : K.Assemblies a a') (ht : K.Tokens t t') (h : K.Streams s s')
    (hs : ∀ e, s ≠ .broken e) : K.Assemblies (a.addText t s) (a'.addText t' s') := by
  obtain ⟨strips, hblocks, hnodes⟩ := ha
  rw [Assembly.addText_eq, Assembly.addText_eq, beginsWithTrimmingOpener_eq h hs]
  refine .mk false hblocks ?_
  rw [textNodes, textNodes, ht.value_eq]
  split
  · exact hnodes
  · exact .cons (.text ht.place _) hnodes

theorem assemblies_add {n n' : Node} (ha : K.Assemblies a a') (hn : K.Placed n n')
    (ht : K.Tokens t t') : K.Assemblies (a.add n t) (a'.add n' t') := by
  obtain ⟨_, hblocks, hnodes⟩ := ha
  rw [Assembly.add, Assembly.add, ht.trims_eq]
  exact .mk _ hblocks (.cons hn hnodes)

theorem attempts_tooDeep {α β : Type} {R : α → β → Prop} {p p' : Position} (hp : K.place p p') :
    K.Attempts R (.error (.tooDeep limit p)) (.error (.tooDeep limit p')) := by
  rw [CompileError.tooDeep, CompileError.tooDeep]
  split
  · exact .parse hp
  · exact .limit _

theorem attempts_openBlock {p p' : Position} {state state' : BlockState}
    (ha : K.Assemblies a a') (hp : K.place p p') (hstate : K.States state state')
    (ht : K.Tokens t t') :
    K.Attempts K.Assemblies (a.openBlock limit p state t) (a'.openBlock limit p' state' t') := by
  obtain ⟨_, hblocks, hnodes⟩ := ha
  rw [Assembly.openBlock, Assembly.openBlock, hblocks.length_eq, ht.trims_eq]
  split
  · exact attempts_tooDeep hp
  · exact .ok (.mk _ (.cons (.mk hp hstate hnodes) hblocks) .nil)

theorem attempts_addDirective {p p' : Position} (d : Directive) (ha : K.Assemblies a a')
    (hp : K.place p p') (ht : K.Tokens t t') :
    K.Attempts K.Assemblies (a.addDirective limit p d t) (a'.addDirective limit p' d t') := by
  cases d with
  | comment | value | call =>
    refine .ok (assemblies_add ha ⟨by simp [Node.same], ?_⟩ ht)
    simpa [Node.preorder, Node.position] using hp
  | ifHead condition => exact attempts_openBlock ha hp (.branch condition hp .nil) ht
  | forHead => exact attempts_openBlock ha hp (.loop ..) ht
  | withHead => exact attempts_openBlock ha hp (.binding ..) ht

section OpenBlocks

variable {b b' : OpenBlock} {outer outer' : List OpenBlock}

theorem attempts_closeBlock (ha : K.Assemblies a a') (hb : K.Blocks b b')
    (houter : List.Forall₂ K.Blocks outer outer') (h : K.Streams s s') :
    K.Attempts (K.Read K.Assemblies) (a.closeBlock b outer s) (a'.closeBlock b' outer' s') := by
  obtain ⟨_, -, hnodes⟩ := ha
  have hnode := placed_finished hb (List.rel_reverse hnodes)
  obtain ⟨-, -, haround⟩ := hb
  refine (attempts_expect .closer .directiveCloser h).bind ?_
  rintro ⟨closer, s⟩ ⟨closer', s'⟩ ⟨hcloser, hs⟩
  dsimp only at hcloser ⊢
  rw [hcloser.trims_eq]
  exact .ok ⟨.mk _ houter (.cons hnode haround), hs⟩

theorem attempts_continueIf {done done' : Branch} {earlier earlier' : List Branch}
    {p p' : Position} (hp : K.place p p') (hb : K.Blocks b b')
    (houter : List.Forall₂ K.Blocks outer outer') (hdone : K.Branches done done')
    (hearlier : List.Forall₂ K.Branches earlier earlier')
    (h : K.Streams s s') :
    K.Attempts (K.Read K.Assemblies) (Assembly.continueIf b outer done earlier p s)
      (Assembly.continueIf b' outer' done' earlier' p' s') := by
  obtain ⟨hopener, -, haround⟩ := hb
  refine (attempts_accept (.keyword .ifWord) h).bind ?_
  rintro ⟨chained, s⟩ ⟨_, s'⟩ ⟨rfl, hs⟩
  cases chained with
  | false =>
    refine (attempts_expect .closer .directiveCloser hs).bind ?_
    rintro ⟨closer, s⟩ ⟨closer', s'⟩ ⟨hcloser, hs⟩
    dsimp only at hcloser ⊢
    rw [hcloser.trims_eq]
    exact .ok ⟨.mk _ (.cons (.mk hopener (.otherwise hdone hearlier) haround) houter) .nil, hs⟩
  | true =>
    refine (attempts_readPath hs).bind ?_
    rintro ⟨condition, s⟩ ⟨_, s'⟩ ⟨rfl, hs⟩
    refine (attempts_expect .closer .directiveCloser hs).bind ?_
    rintro ⟨closer, s⟩ ⟨closer', s'⟩ ⟨hcloser, hs⟩
    dsimp only at hcloser ⊢
    rw [hcloser.trims_eq]
    have hstate : K.States (.branch p condition (done :: earlier))
        (.branch p' condition (done' :: earlier')) := .branch condition hp (.cons hdone hearlier)
    exact .ok ⟨.mk _ (.cons (.mk hopener hstate haround) houter) .nil, hs⟩

theorem any_closedBy_eq (word : Keyword) (h : List.Forall₂ K.Blocks outer outer') :
    outer.any (·.state.kind.closedBy word) = outer'.any (·.state.kind.closedBy word) := by
  induction h with
  | nil => rfl
  | cons hb _ ih => rw [List.any_cons, List.any_cons, hb.kind_eq, ih]

end OpenBlocks

theorem attempts_misplaced {α β : Type} {R : α → β → Prop} (word : Keyword)
    (ha : K.Assemblies a a') (ht : K.Tokens t t') :
    K.Attempts R (.error (a.misplaced word t)) (.error (a'.misplaced word t')) := by
  have hexpected := ha.expected_eq
  obtain ⟨_, hblocks, -⟩ := ha
  cases hblocks with
  | nil =>
    simp only [Assembly.misplaced, hexpected, ht.value_eq]
    exact .parse ht.place
  | cons hb houter =>
    simp only [Assembly.misplaced, any_closedBy_eq word houter, hexpected, ht.value_eq,
      Assembly.unclosed, hb.kind_eq, ht.describe_eq]
    split
    · obtain ⟨hopener, -, -⟩ := hb
      exact .parse hopener
    · exact .parse ht.place

theorem addCloser_misplaced (b : OpenBlock) (outer : List OpenBlock) (nodes : List Node)
    (strips : Bool) {word : Keyword} (hcloser : word ≠ b.state.kind.closer)
    (helse : ∀ position condition earlier, b.state = .branch position condition earlier →
      word ≠ .elseWord) (t : Token) (s : TokenStream) :
    (Assembly.mk (b :: outer) nodes strips).addCloser word t s =
      .error ((Assembly.mk (b :: outer) nodes strips).misplaced word t) := by
  cases h : b.state with
  | branch position condition earlier =>
    have hword := helse _ _ _ h
    rw [h] at hcloser
    simp [Assembly.addCloser, h, hword, hcloser]
  | otherwise | loop | binding =>
    rw [h] at hcloser
    simp [Assembly.addCloser, h, hcloser]

theorem attempts_addCloser (word : Keyword) (ha : K.Assemblies a a') (ht : K.Tokens t t')
    (h : K.Streams s s') :
    K.Attempts (K.Read K.Assemblies) (a.addCloser word t s) (a'.addCloser word t' s') := by
  have hmisplaced := attempts_misplaced (R := K.Read K.Assemblies) word ha ht
  obtain ⟨strips, hblocks, hnodes⟩ := ha
  cases hblocks with
  | nil => exact hmisplaced
  | @cons b b' outer outer' hb houter =>
    by_cases hcloser : word = b.state.kind.closer
    · rw [Assembly.addCloser_closer b outer _ _ hcloser,
        Assembly.addCloser_closer b' outer' _ _ (hb.kind_eq ▸ hcloser)]
      exact attempts_closeBlock (.mk strips (.cons hb houter) hnodes) hb houter h
    · have hcloser' : word ≠ b'.state.kind.closer := hb.kind_eq ▸ hcloser
      obtain ⟨hopener, hstate, haround⟩ := hb
      cases hstate with
      | branch condition hp hearlier =>
        by_cases helse : word = .elseWord
        · subst helse
          exact attempts_continueIf ht.place (.mk hopener (.branch condition hp hearlier) haround)
            houter ⟨hp, rfl, List.rel_reverse hnodes⟩ hearlier h
        · rw [addCloser_misplaced _ outer _ _ hcloser (by simp [helse]),
            addCloser_misplaced _ outer' _ _ hcloser' (by simp [helse])]
          exact hmisplaced
      | otherwise | loop | binding =>
        rw [addCloser_misplaced _ outer _ _ hcloser (by simp),
          addCloser_misplaced _ outer' _ _ hcloser' (by simp)]
        exact hmisplaced

theorem attempts_stepDirective {p p' : Position} (ha : K.Assemblies a a') (hp : K.place p p')
    (h : K.Streams s s') :
    K.Attempts (K.Read K.Assemblies) (a.stepDirective limit p s)
      (a'.stepDirective limit p' s') := by
  refine (attempts_readDirective h).bind ?_
  rintro ⟨d, s⟩ ⟨_, s'⟩ ⟨rfl, hs⟩
  refine (attempts_expect .closer .directiveCloser hs).bind ?_
  rintro ⟨closer, s⟩ ⟨closer', s'⟩ ⟨hcloser, hs⟩
  refine (attempts_addDirective d ha hp hcloser).bind ?_
  intro b b' hb
  exact .ok ⟨hb, hs⟩

theorem attempts_stepOpener {p p' : Position} (ha : K.Assemblies a a') (hp : K.place p p')
    (h : K.Streams s s') :
    K.Attempts (K.Read K.Assemblies) (a.stepOpener limit p s) (a'.stepOpener limit p' s') := by
  cases h with
  | next ht hs =>
    rw [Assembly.stepOpener, Assembly.stepOpener, ← ht.kind_eq]
    split
    · exact attempts_addCloser _ ha ht hs
    · exact attempts_stepDirective ha hp (.next ht hs)
  | ended hp' => exact attempts_stepDirective ha hp (.ended hp')
  | broken _ he => exact .lex _ he

theorem attempts_step (ha : K.Assemblies a a') (ht : K.Tokens t t') (h : K.Streams s s')
    (hs : t.kind = .text → ∀ e, s ≠ .broken e) :
    K.Attempts (K.Read K.Assemblies) (a.step limit t s) (a'.step limit t' s') := by
  rw [Assembly.step, Assembly.step, ← ht.kind_eq, ha.expected_eq]
  split
  · rename_i hkind
    exact .ok ⟨assemblies_addText ha ht h (hs hkind), h⟩
  · exact attempts_stepOpener ha ht.place h
  · exact attempts_unexpected _ ht

theorem attempts_finish (ha : K.Assemblies a a') :
    K.Attempts (List.Forall₂ K.Placed) a.finish a'.finish := by
  obtain ⟨_, hblocks, hnodes⟩ := ha
  cases hblocks with
  | nil => exact .ok (List.rel_reverse hnodes)
  | cons hb =>
    simp only [Assembly.finish, Assembly.unclosed, hb.kind_eq]
    obtain ⟨hopener, -, -⟩ := hb
    exact .parse hopener

theorem placedAttempts_run {a a' : Assembly} {s s' : TokenStream} (ha : K.Assemblies a a')
    (h : K.Streams s s') :
    K.Attempts (List.Forall₂ K.Placed) (a.run limit s) (a'.run limit s') := by
  cases h with
  | @next t t' s s' ht hs =>
    by_cases htext : t.kind = .text ∧ ∃ e, s = .broken e
    · obtain ⟨hkind, e, rfl⟩ := htext
      cases hs with
      | broken _ he =>
        rw [Assembly.run_next, Assembly.step, hkind, Attempt.ok_bind, Assembly.run]
        exact .lex _ he
    · rw [Assembly.run_next, Assembly.run_next]
      refine (attempts_step ha ht hs fun hkind e he => htext ⟨hkind, e, he⟩).bind_of_eq ?_
      rintro ⟨b, r⟩ ⟨b', r'⟩ hstep ⟨hb, hr⟩
      have hle := Assembly.size_le_of_step hstep
      exact placedAttempts_run hb hr
  | ended hp =>
    rw [Assembly.run, Assembly.run]
    exact attempts_finish ha
  | broken _ he =>
    rw [Assembly.run]
    exact .lex _ he
termination_by s.size
decreasing_by exact Nat.lt_succ_of_le hle

theorem attempts_run (ha : K.Assemblies a a') (h : K.Streams s s') :
    K.Attempts Alike (a.run limit s) (a'.run limit s') :=
  (placedAttempts_run ha h).mono fun _ _ => alike_of_placed

end Likeness

end TextTemplate
