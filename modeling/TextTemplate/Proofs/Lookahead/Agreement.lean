import TextTemplate.Proofs.Lookahead.Descent

/-! The descent into the blocks comes to what the assembly of nodes on a stack comes to. A call
inside a block stands for the steps of the assembly while the block lies on its stack. -/

namespace TextTemplate

/-- The part of the block that the innermost unfinished list belongs to. -/
def BlockState.part : BlockState → BlockPart
  | .branch .. => .branch
  | .otherwise .. => .otherwise
  | .loop .. => .loop
  | .binding .. => .binding

theorem BlockState.kind_part (state : BlockState) : state.part.kind = state.kind := by
  cases state <;> rfl

def OpenBlock.enclosing (b : OpenBlock) : Enclosing := ⟨b.opener, b.state.part⟩

def Gathering.assembly (blocks : List OpenBlock) (state : Gathering) : Assembly :=
  ⟨blocks, state.nodes.reverse, state.strips⟩

def Nesting.ofOpen (limit : Int) (blocks : List OpenBlock) : Nesting :=
  ⟨limit, blocks.map OpenBlock.enclosing⟩

theorem OpenBlock.unclosed_enclosing (b : OpenBlock) (found : String) :
    b.enclosing.unclosed found = Assembly.unclosed b found := by
  simp [Enclosing.unclosed, enclosing, Assembly.unclosed, BlockState.kind_part]

/-- The assembly in front of the next branch of an if-block, which stands behind `around`. -/
def Branching.assembly (opener : Position) (around : List Node) (blocks : List OpenBlock)
    (state : Branching) : Assembly :=
  ⟨⟨opener, .branch state.position state.condition state.earlier, around⟩ :: blocks, [],
    state.strips⟩

def TokenStream.readBranching (earlier : List Branch) (position : Position) (s : TokenStream) :
    Attempt (Branching × TokenStream) := do
  let (condition, s) ← s.readPath
  let (closer, s) ← s.expect .closer .directiveCloser
  return (⟨earlier, position, condition, closer.trims⟩, s)

namespace Assembly

variable {limit : Int} {blocks : List OpenBlock} {nodes : List Node} {strips : Bool}
  {word : Keyword} {t : Token} {s : TokenStream}

theorem expected_ofOpen : (Nesting.ofOpen limit blocks).expected =
    (Assembly.mk blocks nodes strips).expected := by
  cases blocks with
  | nil => rfl
  | cons b outer => exact congrArg Expected.blockCloser b.state.kind_part

theorem misplaced_ofOpen : (Nesting.ofOpen limit blocks).misplaced word t =
    (Assembly.mk blocks nodes strips).misplaced word t := by
  cases blocks with
  | nil => rfl
  | cons b outer =>
    simp [Nesting.misplaced, misplaced, Nesting.expected, expected, Nesting.ofOpen,
      OpenBlock.enclosing, Enclosing.unclosed, unclosed, BlockState.kind_part, Function.comp_def]

theorem finish_cons {b : OpenBlock} : (Assembly.mk (b :: blocks) nodes strips).finish =
    .error (b.enclosing.unclosed "end of input") := by
  rw [b.unclosed_enclosing]
  rfl

theorem addCloser_of_not_mem (hword : word.isCloser = true)
    (h : word ∉ (Nesting.ofOpen limit blocks).closers) :
    (Assembly.mk blocks nodes strips).addCloser word t s =
      .error ((Assembly.mk blocks nodes strips).misplaced word t) := by
  cases blocks with
  | nil => rfl
  | cons b outer =>
    obtain ⟨opener, state, around⟩ := b
    cases state <;> cases word <;>
      simp_all [addCloser, Nesting.closers, Nesting.ofOpen, OpenBlock.enclosing, BlockState.part,
        BlockPart.closers, BlockState.kind, BlockKind.closer, Keyword.isCloser]

theorem addCloser_strips : (Assembly.mk blocks nodes strips).addCloser word t s =
    (Assembly.mk blocks nodes false).addCloser word t s := by
  cases blocks with
  | nil => rfl
  | cons b outer =>
    obtain ⟨opener, state, around⟩ := b
    cases state <;> cases word <;> rfl

theorem beginsWithTrimmingOpener_of_shows (h : s.Shows t) :
    beginsWithTrimmingOpener s = (t.kind == .opener && t.trims) := by
  obtain ⟨⟨rest, rfl⟩, -⟩ | ⟨rfl, hend⟩ := h
  · rfl
  · rw [hend]
    rfl

theorem continueIf_of_accept {b : OpenBlock} {done : Branch} {earlier : List Branch}
    {position : Position} {s' : TokenStream}
    (h : s.accept (.keyword .ifWord) = .ok (true, s')) :
    continueIf b blocks done earlier position s =
      s'.readBranching (done :: earlier) position >>= fun result =>
        .ok (result.1.assembly b.opener b.around blocks, result.2) := by
  simp [continueIf, h, TokenStream.readBranching, Branching.assembly]

theorem stepOpener_of_shows {a : Assembly} {opener : Position} (h : s.Shows t)
    (hword : closingWord? t.kind = none) :
    a.stepOpener limit opener s = a.stepDirective limit opener s := by
  obtain ⟨⟨rest, rfl⟩, -⟩ | ⟨rfl, -⟩ := h
  · rw [stepOpener, hword]
  · rfl

theorem isCloser_of_closingWord? {kind : TokenKind} (h : closingWord? kind = some word) :
    word.isCloser = true := by
  obtain rfl := eq_keyword_of_closingWord? h
  simpa [closingWord?] using h

end Assembly

namespace Parser

open TokenStream (next ended)

variable {limit : Int} {blocks : List OpenBlock} {nodes : List Node} {strips : Bool}
  {l : Lookahead} {t : Token} {rest : TokenStream}

/-- What is left to the assembly behind a list of nodes. -/
def Resumes (limit : Int) (blocks : List OpenBlock) (x : Attempt (List Node)) :
    Except CompileError (List Node × Option Token) → Lookahead → Prop
  | .ok (nodes, none), _ => x = (Assembly.mk blocks nodes.reverse false).finish
  | .ok (nodes, some t), l => ∃ word, t.kind = .keyword word ∧
    word ∈ (Nesting.ofOpen limit blocks).closers ∧
    x = (Assembly.mk blocks nodes.reverse false).addCloser word t l.stream >>=
      fun result => result.1.run limit result.2
  | .error e, _ => x = .error e

/-- What is left to the assembly behind a node. -/
def Adds (limit : Int) (blocks : List OpenBlock) (nodes : List Node) (x : Attempt (List Node)) :
    Except CompileError (Node × Bool) → Lookahead → Prop
  | .ok (node, strips), l => x = (Assembly.mk blocks (node :: nodes) strips).run limit l.stream
  | .error e, _ => x = .error e

/-- What is left to the assembly behind a block without the closer of its last directive. -/
def Closes (limit : Int) (blocks : List OpenBlock) (nodes : List Node) (x : Attempt (List Node)) :
    Except CompileError Node → Lookahead → Prop
  | .ok node, l => x = l.stream.expect .closer .directiveCloser >>= fun result =>
      (Assembly.mk blocks (node :: nodes) result.1.trims).run limit result.2
  | .error e, _ => x = .error e

def NodesAt (limit : Int) (l : Lookahead) : Prop :=
  ∀ blocks state, Ends ((Nesting.ofOpen limit blocks).parseNodes state) l
    (Resumes limit blocks ((Gathering.assembly blocks state).run limit l.stream))

theorem ends_readText {β : Type} {k : List Node → Parser β}
    {Q : Except CompileError β → Lookahead → Prop} (hs : l.stream = next t rest)
    (h : ∀ l', l.Consumes l' → l'.stream = rest →
      Ends (k (textNodes t strips (Assembly.beginsWithTrimmingOpener rest))) l' Q) :
    Ends (readText strips >>= k) l Q := by
  rw [readText, bind_assoc]
  refine ends_advance hs fun l' hconsumes hrest => ?_
  rw [bind_assoc]
  refine ends_peek fun following l'' hfollows hs' hshows => ?_
  rw [pure_bind, ← Assembly.beginsWithTrimmingOpener_of_shows (hrest ▸ hshows)]
  exact h l'' (hconsumes.follows hfollows) (hs'.trans hrest)

theorem ends_enter {β : Type} {k : Unit → Parser β}
    {Q : Except CompileError β → Lookahead → Prop} {opener : Position}
    (hdeep : limit ≤ blocks.length → Q (.error (.tooDeep limit opener)) l)
    (hopen : ¬ limit ≤ blocks.length → Ends (k ()) l Q) :
    Ends ((Nesting.ofOpen limit blocks).enter opener >>= k) l Q := by
  simp only [Nesting.enter, Nesting.ofOpen, List.length_map]
  by_cases h : limit ≤ blocks.length
  · rw [if_pos h]
    exact ⟨_, l, rfl, .refl l, hdeep h⟩
  · rw [if_neg h, pure_bind]
    exact hopen h

theorem reads_readBranching (earlier : List Branch) (position : Position) :
    Reads (readBranching earlier position) (TokenStream.readBranching earlier position) := by
  refine reads_readPath.bind fun condition => ?_
  exact (reads_expect (by decide)).bind fun closer l => ends_return rfl

theorem Closes.ends {x : Attempt (List Node)} {node : Node}
    (h : Closes limit blocks nodes x (.ok node) l) :
    Ends (do let closer ← expect .closer .directiveCloser; return (node, closer.trims)) l
      (Adds limit blocks nodes x) := by
  refine (reads_expect (by decide) l).bind_read (fun closer l' _ hread => ends_pure ?_)
    fun e l' herror => ?_
  · refine h.trans ?_
    simp [hread]
  · refine h.trans ?_
    simp [herror]

/-- The last part of a block is ended by one word only. -/
theorem ends_parseLast (hnodes : NodesAt limit l) (opener : Position) (state : BlockState)
    (hstate : state.part.closers = [state.kind.closer]) (strips : Bool) :
    Ends ((Nesting.ofOpen limit blocks).parseLast ⟨opener, state.part⟩ strips) l
      fun result l' => Closes limit blocks nodes
        ((Assembly.mk (⟨opener, state, nodes⟩ :: blocks) [] strips).run limit l.stream)
        (result.map (Assembly.finished ⟨opener, state, nodes⟩)) l' := by
  rw [Nesting.parseLast]
  refine (hnodes (⟨opener, state, nodes⟩ :: blocks) ⟨[], strips⟩).bind ?_ fun e l' _ h => h
  rintro ⟨body, _ | t⟩ l' - hbody
  · exact ends_throw (hbody.trans Assembly.finish_cons)
  · obtain ⟨word, -, hword, hbody⟩ := hbody
    have hcloser : word = state.kind.closer := by
      simpa [Nesting.closers, Nesting.ofOpen, OpenBlock.enclosing, hstate] using hword
    rw [Assembly.addCloser_closer _ _ _ _ hcloser] at hbody
    refine ends_pure (hbody.trans ?_)
    simp [Assembly.closeBlock]

theorem ends_parseBlock (hnodes : NodesAt limit l) (opener : Position) (state : BlockState)
    (hstate : state.part.closers = [state.kind.closer]) (closer : Token) :
    Ends ((Nesting.ofOpen limit blocks).parseBlock ⟨opener, state.part⟩ closer.trims
      (Assembly.finished ⟨opener, state, nodes⟩)) l
      (Adds limit blocks nodes
        ((Assembly.mk blocks nodes strips).openBlock limit opener state closer >>=
          fun a => a.run limit l.stream)) := by
  rw [Nesting.parseBlock]
  refine ends_enter (fun hdeep => ?_) fun hopen => ?_
  · simp only [Assembly.openBlock, if_pos hdeep]
    rfl
  · simp only [Assembly.openBlock, if_neg hopen, Attempt.ok_bind]
    refine (ends_parseLast hnodes opener state hstate closer.trims).bind ?_ fun e l' _ h => h
    exact fun body l' _ hbody => Closes.ends hbody

/-- The turn has begun at `l₀`, and behind `else` the assembly is at the continuation of the
block. -/
theorem ends_elseTurn {l₀ : Lookahead} (hfollows₀ : l₀.Follows l)
    (hinner : ∀ l', l'.left.length ≤ l.left.length → NodesAt limit l') (nodes : List Node)
    (opener : Position) (state : Branching) (branch : Branch) (position : Position)
    (hrest : (state.assembly opener nodes blocks).run limit l₀.stream =
      Assembly.continueIf
          ⟨opener, .branch state.position state.condition state.earlier, nodes⟩ blocks branch
          state.earlier position l.stream >>=
        fun result => result.1.run limit result.2) :
    Ends ((Nesting.ofOpen limit blocks).elseTurn opener branch state.earlier position) l
      (TurnOf (fun state l => Closes limit blocks nodes
        ((state.assembly opener nodes blocks).run limit l.stream)) state l₀) := by
  rw [Nesting.elseTurn]
  refine ends_accept (by decide) (fun l' hconsumes haccept => ?_) fun l' hfollows haccept => ?_
  · rw [Assembly.continueIf_of_accept haccept] at hrest
    refine (reads_readBranching _ position l').bind_read (fun next l'' hfollows' hread => ?_)
      fun e l'' herror => ?_
    · have hconsumes' := (hconsumes.follows hfollows').of_follows hfollows₀
      refine ends_pure (turnOf_again hconsumes' (hrest.trans ?_))
      rw [hread]
      rfl
    · refine hrest.trans ?_
      rw [herror]
      rfl
  · refine (reads_expect (by decide) l').bind_read (fun closer l'' hfollows' hread => ?_)
      fun e l'' herror => ?_
    · have hlast : (state.assembly opener nodes blocks).run limit l₀.stream =
          (Assembly.mk (⟨opener, .otherwise branch state.earlier, nodes⟩ :: blocks) []
            closer.trims).run limit l''.stream := by
        refine hrest.trans ?_
        simp [Assembly.continueIf, haccept, hread]
      have hnodes := hinner l'' (hfollows.trans hfollows').length_le
      refine (ends_parseLast hnodes opener (.otherwise branch state.earlier) rfl closer.trims).bind
        ?_ fun e _ _ h => hlast.trans h
      exact fun body _ _ hbody => ends_pure (hlast.trans hbody)
    · refine hrest.trans ?_
      simp [Assembly.continueIf, haccept, herror]

theorem ends_branchTurn (hinner : ∀ l', l'.left.length ≤ l.left.length → NodesAt limit l')
    (nodes : List Node) (opener : Position) (state : Branching) :
    Ends ((Nesting.ofOpen limit blocks).branchTurn opener state) l
      (TurnOf (fun state l => Closes limit blocks nodes
        ((state.assembly opener nodes blocks).run limit l.stream)) state l) := by
  rw [Nesting.branchTurn]
  refine (hinner l (Nat.le_refl _)
    (⟨opener, .branch state.position state.condition state.earlier, nodes⟩ :: blocks)
    ⟨[], state.strips⟩).bind ?_ fun e l' _ h => h
  rintro ⟨body, _ | t⟩ l' hfollows hbody
  · exact ends_throw (hbody.trans Assembly.finish_cons)
  · obtain ⟨word, hkind, hword, hbody⟩ := hbody
    simp only [Nesting.closers, Nesting.ofOpen, List.map_cons, OpenBlock.enclosing, BlockState.part,
      BlockPart.closers, List.mem_cons, List.not_mem_nil, or_false] at hword
    obtain rfl | rfl := hword
    · have hne : t.kind ≠ .keyword .endifWord := by
        rw [hkind]
        decide
      simp only [if_neg hne]
      refine ends_elseTurn hfollows (fun l'' hl'' => hinner l'' (hl''.trans hfollows.length_le))
        nodes opener state _ t.position (hbody.trans ?_)
      simp [Assembly.addCloser]
    · simp only [if_pos hkind]
      refine ends_pure (hbody.trans ?_)
      simp [Assembly.addCloser, Assembly.closeBlock, Assembly.finished, BlockState.kind,
        BlockKind.closer]

theorem ends_parseBranches (hinner : ∀ l', l'.left.length ≤ l.left.length → NodesAt limit l')
    (opener : Position) (state : Branching) :
    Ends ((Nesting.ofOpen limit blocks).parseBranches opener state) l
      (Closes limit blocks nodes
        ((state.assembly opener nodes blocks).run limit l.stream)) := by
  refine ends_loop ((Nesting.ofOpen limit blocks).parseBranches opener)
    (Q := fun state l => Closes limit blocks nodes
      ((state.assembly opener nodes blocks).run limit l.stream)) l.left.length (fun state => ?_)
    (fun state l' hl' =>
      ends_branchTurn (fun l'' hl'' => hinner l'' (hl''.trans hl')) nodes opener state)
    state l (Nat.le_refl _)
  rw [Nesting.parseBranches]
  exact bind_congr fun turn => by cases turn <;> rfl

theorem ends_parseIf (hinner : ∀ l', l'.left.length ≤ l.left.length → NodesAt limit l')
    (opener : Position) (condition : Path) (closer : Token) :
    Ends ((Nesting.ofOpen limit blocks).parseIf opener condition closer.trims) l
      (Adds limit blocks nodes
        ((Assembly.mk blocks nodes strips).openBlock limit opener (.branch opener condition [])
          closer >>= fun a => a.run limit l.stream)) := by
  rw [Nesting.parseIf]
  refine ends_enter (fun hdeep => ?_) fun hopen => ?_
  · simp only [Assembly.openBlock, if_pos hdeep]
    rfl
  · simp only [Assembly.openBlock, if_neg hopen, Attempt.ok_bind]
    refine (ends_parseBranches hinner opener ⟨[], opener, condition, closer.trims⟩).bind ?_
      fun e l' _ h => h
    exact fun node l' _ hnode => Closes.ends hnode

theorem ends_parseDirective (hinner : ∀ l', l'.left.length < l.left.length → NodesAt limit l')
    (hs : l.stream = next t rest) :
    Ends ((Nesting.ofOpen limit blocks).parseDirective) l fun result l' =>
      l.Consumes l' ∧ Adds limit blocks nodes
        ((Assembly.mk blocks nodes strips).stepDirective limit t.position rest >>=
          fun result => result.1.run limit result.2) result l' := by
  rw [Nesting.parseDirective]
  refine ends_advance hs fun l₁ hconsumes hrest => ?_
  refine Ends.mono ?_ fun result l' hfollows h => ⟨hconsumes.follows hfollows, h⟩
  refine (reads_readDirective.ends hrest).bind_read (fun d l₂ hfollows₂ hread => ?_)
    fun e l₂ herror => ?_
  · refine (reads_expect (by decide) l₂).bind_read (fun closer l₃ hfollows₃ hcloser => ?_)
      fun e l₃ herror => ?_
    · have hinner₃ : ∀ l', l'.left.length ≤ l₃.left.length → NodesAt limit l' := fun l' hl' =>
        hinner l' (by
          have hle := (hfollows₂.trans hfollows₃).length_le
          have hlt := hconsumes.length_lt
          omega)
      have hstep : (Assembly.mk blocks nodes strips).stepDirective limit t.position rest =
          (Assembly.mk blocks nodes strips).addDirective limit t.position d closer >>=
            fun a => .ok (a, l₃.stream) := by
        simp [Assembly.stepDirective, hread, hcloser]
      rw [hstep, bind_assoc]
      cases d with
      | comment | value | call => exact ends_pure rfl
      | ifHead condition => exact ends_parseIf hinner₃ t.position condition closer
      | forHead item index source =>
        exact ends_parseBlock (hinner₃ l₃ (Nat.le_refl _)) t.position (.loop item index source) rfl
          closer
      | withHead source name =>
        exact ends_parseBlock (hinner₃ l₃ (Nat.le_refl _)) t.position (.binding source name) rfl
          closer
    · simp [Assembly.stepDirective, hread, herror]
      rfl
  · simp [Assembly.stepDirective, herror]
    rfl

theorem ends_nodesTurn (hinner : ∀ l', l'.left.length < l.left.length → NodesAt limit l')
    (state : Gathering) : Ends ((Nesting.ofOpen limit blocks).nodesTurn state) l
      (TurnOf (fun state l => Resumes limit blocks
        ((state.assembly blocks).run limit l.stream)) state l) := by
  rw [Nesting.nodesTurn]
  refine ends_peek fun t l₁ hfollows hs hshows => ?_
  obtain ⟨kind, value, position⟩ := t
  obtain ⟨⟨rest, hnext⟩, hend⟩ | ⟨hended, rfl⟩ := hshows
  · have hrun : (state.assembly blocks).run limit l.stream =
        (state.assembly blocks).step limit ⟨kind, value, position⟩ rest >>=
          fun result => result.1.run limit result.2 := by
      rw [hnext, Assembly.run_next]
    cases kind with
    | text =>
      refine ends_readText (hs.trans hnext) fun l₂ hconsumes hrest => ends_pure ?_
      refine turnOf_again (.of_follows hfollows hconsumes) (hrun.trans ?_)
      simp [Assembly.step, Assembly.addText_eq, Gathering.assembly, hrest]
    | opener =>
      refine ends_peek_one (hs.trans hnext) fun ahead l₂ hfollows₂ hs₂ hshows => ?_
      have hs₂ := hs₂.trans (hs.trans hnext)
      cases hword : Assembly.closingWord? ahead.kind with
      | some word =>
        have hkind := Assembly.eq_keyword_of_closingWord? hword
        obtain ⟨⟨rest, rfl⟩, -⟩ | ⟨-, hend⟩ := hshows
        · have hstep : (state.assembly blocks).step limit ⟨.opener, value, position⟩
              (next ahead rest) = (state.assembly blocks).addCloser word ahead rest := by
            simp [Assembly.step, Assembly.stepOpener, hword]
          rw [hstep] at hrun
          by_cases hmem : word ∈ (Nesting.ofOpen limit blocks).closers
          · simp only [if_pos hmem]
            refine ends_advance hs₂ fun l₃ _ hrest => ends_advance hrest fun l₄ _ hrest' => ?_
            refine ends_pure ⟨word, hkind, hmem, hrun.trans ?_⟩
            rw [hrest', Gathering.assembly, Assembly.addCloser_strips]
          · simp only [if_neg hmem]
            refine ends_throw (hrun.trans ?_)
            have hcloser := Assembly.isCloser_of_closingWord? hword
            rw [Gathering.assembly, Assembly.addCloser_of_not_mem hcloser hmem,
              ← Assembly.misplaced_ofOpen]
            rfl
        · rw [hend] at hkind
          cases hkind
      | none =>
        have hstep : (state.assembly blocks).step limit ⟨.opener, value, position⟩ rest =
            (state.assembly blocks).stepDirective limit position rest :=
          Assembly.stepOpener_of_shows hshows hword
        rw [hstep] at hrun
        have hinner₂ : ∀ l', l'.left.length < l₂.left.length → NodesAt limit l' := fun l' hl' =>
          hinner l' (hl'.trans_le (hfollows.trans hfollows₂).length_le)
        refine (ends_parseDirective hinner₂ hs₂).bind ?_ fun e l' _ h => hrun.trans h.2
        rintro ⟨node, strips⟩ l₃ hfollows₃ ⟨hconsumes, hnode⟩
        have hconsumes₃ := hconsumes.of_follows (hfollows.trans hfollows₂)
        refine ends_pure (turnOf_again hconsumes₃ (hrun.trans (hnode.trans ?_)))
        simp [Gathering.assembly]
    | endOfInput => exact absurd rfl hend
    | closer | comment | keyword | identifier | integer | string | dot | pipe | comma | equals
    | atSign =>
      refine ends_throw (hrun.trans ?_)
      rw [Assembly.expected_ofOpen]
      rfl
  · refine ends_pure ?_
    change _ = _
    rw [hended, Assembly.run]
    rfl

/-- Blocks nest within the tokens that are left, which is why the descent into them ends. -/
theorem nodesAt (limit : Int) (l : Lookahead) : NodesAt limit l := by
  induction hlength : l.left.length using Nat.strong_induction_on generalizing l with
  | h n ih =>
    intro blocks state
    refine ends_loop ((Nesting.ofOpen limit blocks).parseNodes)
      (Q := fun state l => Resumes limit blocks ((state.assembly blocks).run limit l.stream)) n
      (fun state => ?_)
      (fun state l' hl' => ends_nodesTurn (fun l'' hl'' => ih _ (by omega) l'' rfl) state) state l
      hlength.le
    rw [Nesting.parseNodes]
    exact bind_congr fun turn => by cases turn <;> rfl

theorem ends_parse (limit : Int) (name : String) (tokens : List Token) :
    Ends (parse limit name) (.ofTokens tokens) fun result _ =>
      result = Template.ofTokens tokens name limit := by
  refine (nodesAt limit (.ofTokens tokens) [] ⟨[], false⟩).bind ?_ fun e l' _ h => ?_
  · rintro ⟨nodes, _ | t⟩ l' - h
    · refine ends_pure ?_
      rw [Template.ofTokens, ← Lookahead.stream_ofTokens]
      change _ = Assembly.run limit (Gathering.assembly [] ⟨[], false⟩) _ >>= _
      rw [h]
      simp [Assembly.finish]
    · obtain ⟨word, -, hword, -⟩ := h
      cases hword
  · rw [Template.ofTokens, ← Lookahead.stream_ofTokens]
    change _ = Assembly.run limit (Gathering.assembly [] ⟨[], false⟩) _ >>= _
    rw [h]
    rfl

end Parser

end TextTemplate
