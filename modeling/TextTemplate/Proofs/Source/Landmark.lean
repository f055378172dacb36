import TextTemplate.Proofs.Place
import TextTemplate.Proofs.Preorder
import TextTemplate.Proofs.Source.OnDemand

/-! Where nodes and errors stand in the source. The nodes of a template, in their order, belong to
the texts and directives of its source, in theirs. -/

namespace TextTemplate

/-- The tokens begin with a text, or with a directive that makes a node: one that is no closing
word, or the `else` of a further condition. -/
def beginsNode : List Token → Bool
  | [] => false
  | t :: rest => t.kind == .text || t.kind == .opener && makesNode rest
where
  makesNode : List Token → Bool
    | [] => false
    | t :: rest =>
      match Assembly.closingWord? t.kind with
      | none => true
      | some word => word == .elseWord && (rest.head?.map Token.kind == some (.keyword .ifWord))

/-- The tokens from each place on where something stands that makes a node. -/
def landmarks : List Token → List (List Token)
  | [] => []
  | t :: rest => if beginsNode (t :: rest) then (t :: rest) :: landmarks rest else landmarks rest

/-- The node is what stands in front of the tokens, at the place of the text, of the `else` of a
further condition, or else of the opener. Of a block only the head is looked at. -/
inductive Node.SitsAt : Node → List Token → Prop
  | text {t : Terminal .text} {before behind : Bool} {more : List Token} :
      strippedText t.1.value before behind ≠ "" →
      SitsAt (.text t.1.position (strippedText t.1.value before behind)) (t.1 :: more)
  | leaf (tag : Tag LeafPhrase) (more : List Token) :
      SitsAt (tag.inside.node tag.opener.1.position) (tag.tokens LeafPhrase.tokens ++ more)
  | ifBlock (head : Tag IfPhrase) (body : List Node) (otherwise : Option (List Node))
      (more : List Token) :
      SitsAt (.ifBlock head.opener.1.position head.inside.condition.path body otherwise)
        (head.tokens IfPhrase.tokens ++ more)
  | elseIf (tag : ElseIfTag) (body : List Node) (otherwise : Option (List Node))
      (more : List Token) :
      SitsAt (.ifBlock tag.inside.1.1.position tag.inside.2.condition.path body otherwise)
        (tag.tokens ++ more)
  | block (head : Tag BlockPhrase) (body : List Node) (more : List Token) :
      SitsAt (head.inside.node head.opener.1.position body)
        (head.tokens BlockPhrase.tokens ++ more)

/-- Every landmark has its node, in the same order. Only a text of which nothing remains between
its delimiters has none. -/
inductive Marked : List Node → List (List Token) → Prop
  | nil : Marked [] []
  | node {n : Node} {nodes : List Node} {tokens : List Token} {marks : List (List Token)} :
      n.SitsAt tokens → Marked nodes marks → Marked (n :: nodes) (tokens :: marks)
  | blank {t : Terminal .text} {before behind : Bool} {more : List Token} {nodes : List Node}
      {marks : List (List Token)} : strippedText t.1.value before behind = "" →
      Marked nodes marks → Marked nodes ((t.1 :: more) :: marks)

/-- Kinds of tokens that never begin a node. -/
def TokenKind.isQuiet : TokenKind → Bool
  | .text | .opener => false
  | _ => true

def Quiet (tokens : List Token) : Prop := ∀ t ∈ tokens, t.kind.isQuiet = true

section Quiet

@[simp] theorem quiet_nil : Quiet [] := by simp [Quiet]

@[simp] theorem quiet_cons {t : Token} {tokens : List Token} :
    Quiet (t :: tokens) ↔ t.kind.isQuiet = true ∧ Quiet tokens :=
  List.forall_mem_cons

@[simp] theorem quiet_append {tokens tokens' : List Token} :
    Quiet (tokens ++ tokens') ↔ Quiet tokens ∧ Quiet tokens' :=
  List.forall_mem_append

theorem Terminal.isQuiet {kind : TokenKind} (t : Terminal kind) (h : kind.isQuiet = true) :
    t.1.kind.isQuiet = true := by
  rw [t.2, h]

theorem quiet_pairTokens {p q : Token → Prop} (pairs : List ({ t // p t } × { t // q t }))
    (hp : ∀ t, p t → t.kind.isQuiet = true) (hq : ∀ t, q t → t.kind.isQuiet = true) :
    Quiet (pairTokens pairs) := by
  induction pairs with
  | nil => exact quiet_nil
  | cons pair pairs ih =>
    have htokens : pairTokens (pair :: pairs) = pair.1.1 :: pair.2.1 :: pairTokens pairs := rfl
    rw [htokens, quiet_cons, quiet_cons]
    exact ⟨hp _ pair.1.2, hq _ pair.2.2, ih⟩

theorem PathPhrase.quiet (p : PathPhrase) : Quiet p.tokens := by
  rw [tokens, quiet_cons]
  refine ⟨?_, quiet_pairTokens _ ?_ ?_⟩
  · rcases p.head.2 with hkind | hkind <;> rw [hkind] <;> rfl
  · intro t hkind
    rw [hkind]
    rfl
  · rintro t (hkind | hkind) <;> rw [hkind] <;> rfl

theorem FormatterPhrase.quiet (p : FormatterPhrase) : Quiet p.tokens := by
  rw [tokens, quiet_cons, quiet_cons]
  refine ⟨p.pipe.isQuiet rfl, p.name.isQuiet rfl, ?_⟩
  intro t ht
  obtain ⟨literal, -, rfl⟩ := List.mem_map.mp ht
  rcases literal.2 with hkind | ⟨hkind, -⟩ <;> rw [hkind] <;> rfl

theorem ValuePhrase.quiet (p : ValuePhrase) : Quiet p.tokens := by
  rw [tokens, quiet_append]
  refine ⟨p.path.quiet, ?_⟩
  cases p.formatter with
  | none => exact quiet_nil
  | some q => exact q.quiet

theorem NamePhrase.quiet (p : NamePhrase) : Quiet p.tokens := by
  cases p with
  | quoted t => simpa [tokens] using t.isQuiet rfl
  | dotted first more =>
    rw [tokens, quiet_cons]
    refine ⟨first.isQuiet rfl, quiet_pairTokens _ ?_ ?_⟩
    · intro t hkind
      rw [hkind]
      rfl
    · intro t hkind
      rw [hkind]
      rfl

theorem ArgumentPhrase.quiet (p : ArgumentPhrase) : Quiet p.tokens := by
  rw [tokens, quiet_cons, quiet_cons, quiet_cons]
  exact ⟨p.comma.isQuiet rfl, p.name.isQuiet rfl, p.equals.isQuiet rfl, p.path.quiet⟩

theorem CallPhrase.quiet (p : CallPhrase) : Quiet p.tokens := by
  rw [tokens, quiet_cons, quiet_append, quiet_append]
  refine ⟨p.word.isQuiet rfl, p.name.quiet, ?_, ?_⟩
  · cases p.root with
    | none => exact quiet_nil
    | some part => exact quiet_cons.mpr ⟨part.1.isQuiet rfl, part.2.quiet⟩
  · intro t ht
    obtain ⟨argument, -, hargument⟩ := List.mem_flatMap.mp ht
    exact argument.quiet t hargument

theorem LeafPhrase.quiet (p : LeafPhrase) : Quiet p.tokens := by
  cases p with
  | comment t => simpa [tokens] using t.isQuiet rfl
  | value p => exact p.quiet
  | call p => exact p.quiet

theorem IfPhrase.quiet (p : IfPhrase) : Quiet p.tokens :=
  quiet_cons.mpr ⟨p.word.isQuiet rfl, p.condition.quiet⟩

theorem BlockPhrase.quiet (p : BlockPhrase) : Quiet p.tokens := by
  cases p with
  | loop p =>
    rw [tokens, ForPhrase.tokens, quiet_cons, quiet_cons, quiet_append, quiet_cons]
    refine ⟨p.word.isQuiet rfl, p.item.isQuiet rfl, ?_, p.inWord.isQuiet rfl, p.source.quiet⟩
    cases p.index with
    | none => exact quiet_nil
    | some part => simpa [ForPhrase.indexTokens] using ⟨part.1.isQuiet rfl, part.2.isQuiet rfl⟩
  | binding p =>
    rw [tokens, WithPhrase.tokens, quiet_cons, quiet_append, quiet_cons, quiet_cons]
    exact ⟨p.word.isQuiet rfl, p.source.quiet, p.asWord.isQuiet rfl, p.name.isQuiet rfl, quiet_nil⟩

end Quiet

theorem landmarks_quiet {tokens : List Token} (h : Quiet tokens) (more : List Token) :
    landmarks (tokens ++ more) = landmarks more := by
  induction tokens with
  | nil => rfl
  | cons t tokens ih =>
    obtain ⟨ht, htokens⟩ := quiet_cons.mp h
    have hbegins : beginsNode (t :: (tokens ++ more)) = false := by
      rw [beginsNode]
      cases hkind : t.kind <;> simp_all [TokenKind.isQuiet]
    rw [List.cons_append, landmarks, hbegins, if_neg Bool.false_ne_true, ih htokens]

theorem quiet_closer (closer : Terminal .closer) : Quiet [closer.1] := by
  simpa using closer.isQuiet rfl

/-- A directive that is no closing word begins a node, and nothing inside of it does. -/
theorem landmarks_tag {α : Type} {inner : α → List Token} (tag : Tag α) (p : DirectivePhrase)
    (hp : inner tag.inside = p.tokens) (hquiet : Quiet (inner tag.inside)) (more : List Token) :
    landmarks (tag.tokens inner ++ more) = (tag.tokens inner ++ more) :: landmarks more := by
  obtain ⟨t, tokens, htokens, hword⟩ := Assembly.exists_first_token p
  have hbegins : beginsNode
      (tag.opener.1 :: (inner tag.inside ++ [tag.closer.1] ++ more)) = true := by
    simp [beginsNode, beginsNode.makesNode, hp, htokens, tag.opener.2, hword]
  rw [Tag.tokens, List.cons_append, landmarks, if_pos hbegins,
    landmarks_quiet (quiet_append.mpr ⟨hquiet, quiet_closer tag.closer⟩)]

theorem landmarks_wordTag {word : Keyword} (tag : WordTag word) (h : word.isCloser = true)
    (more : List Token) : landmarks (tag.tokens ++ more) = landmarks more := by
  have htokens : tag.tokens ++ more =
      tag.opener.1 :: ([tag.inside.1, tag.closer.1] ++ more) := rfl
  have hbegins : beginsNode (tag.opener.1 :: ([tag.inside.1, tag.closer.1] ++ more)) = false := by
    simp [beginsNode, beginsNode.makesNode, tag.opener.2, tag.inside.2, tag.closer.2,
      Assembly.closingWord?_closer h]
  have hquiet : Quiet [tag.inside.1, tag.closer.1] := by
    simpa using ⟨tag.inside.isQuiet rfl, tag.closer.isQuiet rfl⟩
  rw [htokens, landmarks, hbegins, if_neg Bool.false_ne_true, landmarks_quiet hquiet]

theorem landmarks_elseIf (tag : ElseIfTag) (more : List Token) :
    landmarks (tag.tokens ++ more) = (tag.tokens ++ more) :: landmarks more := by
  have htokens : tag.tokens ++ more = tag.opener.1 ::
      (tag.inside.1.1 :: (tag.inside.2.tokens ++ [tag.closer.1]) ++ more) := rfl
  have hword : Assembly.closingWord? (.keyword .elseWord) = some .elseWord :=
    Assembly.closingWord?_closer rfl
  have hbegins : beginsNode (tag.opener.1 ::
      (tag.inside.1.1 :: (tag.inside.2.tokens ++ [tag.closer.1]) ++ more)) = true := by
    simp [beginsNode, beginsNode.makesNode, tag.opener.2, tag.inside.1.2, IfPhrase.tokens,
      tag.inside.2.word.2, hword]
  have hquiet : Quiet (tag.inside.1.1 :: (tag.inside.2.tokens ++ [tag.closer.1])) :=
    quiet_cons.mpr ⟨tag.inside.1.isQuiet rfl,
      quiet_append.mpr ⟨tag.inside.2.quiet, quiet_closer tag.closer⟩⟩
  rw [htokens, landmarks, if_pos hbegins, landmarks_quiet hquiet]

theorem landmarks_text (t : Terminal .text) (more : List Token) :
    landmarks (t.1 :: more) = (t.1 :: more) :: landmarks more := by
  have hbegins : beginsNode (t.1 :: more) = true := by simp [beginsNode, t.2]
  rw [landmarks, if_pos hbegins]

theorem marked_text (t : Terminal .text) (before behind : Bool) (more : List Token)
    {nodes : List Node} {marks : List (List Token)} (h : Marked nodes marks) :
    Marked (Node.listPreorder (textNodes t.1 before behind) ++ nodes)
      ((t.1 :: more) :: marks) := by
  rw [textNodes]
  by_cases hblank : strippedText t.1.value before behind = ""
  · rw [if_pos hblank]
    exact .blank hblank h
  · rw [if_neg hblank]
    exact .node (.text hblank) h

theorem Node.listPreorder_append (nodes nodes' : List Node) :
    listPreorder (nodes ++ nodes') = listPreorder nodes ++ listPreorder nodes' := by
  induction nodes with
  | nil => rfl
  | cons n nodes ih => rw [List.cons_append, listPreorder, listPreorder, ih, List.append_assoc]

theorem LeafPhrase.preorder_node (p : LeafPhrase) (position : Position) :
    (p.node position).preorder = [p.node position] := by
  cases p <;> rfl

theorem BlockPhrase.preorder_node (p : BlockPhrase) (position : Position) (body : List Node) :
    (p.node position body).preorder = p.node position body :: Node.listPreorder body := by
  cases p <;> rfl

mutual

/-- What follows a content is marked by itself. -/
theorem Content.marked (c : Content) (before behind : Bool) {more : List Token}
    {nodes : List Node} (h : Marked nodes (landmarks more)) :
    Marked (Node.listPreorder (c.nodes before behind) ++ nodes) (landmarks (c.tokens ++ more)) := by
  match c with
  | .nil => exact h
  | .text t rest =>
    rw [Content.nodes, Content.tokens, List.cons_append, landmarks_text,
      Node.listPreorder_append, List.append_assoc]
    exact marked_text t _ _ _ (Content.marked rest _ _ h)
  | .leaf tag rest =>
    rw [Content.nodes, Content.tokens, Node.listPreorder, LeafPhrase.preorder_node,
      List.append_assoc, List.append_assoc,
      landmarks_tag tag (.leaf tag.inside) rfl tag.inside.quiet]
    exact .node (.leaf tag _) (Content.marked rest _ _ h)
  | .ifBlock head body branches rest =>
    have hrest := Content.marked rest branches.trimsBehind behind h
    have hbranches := IfRest.marked branches hrest
    have hbody := Content.marked body head.closer.1.trims branches.trimsBefore hbranches
    rw [Content.nodes, Content.tokens, Node.listPreorder, Node.preorder, List.append_assoc,
      List.append_assoc, landmarks_tag head (.condition head.inside) rfl head.inside.quiet,
      List.append_assoc, List.append_assoc, List.cons_append, List.append_assoc]
    exact .node (.ifBlock head _ _ _) hbody
  | .block head body ending rest =>
    have hrest := Content.marked rest ending.closer.1.trims behind h
    rw [← landmarks_wordTag ending (Assembly.isCloser_closer _)] at hrest
    have hbody := Content.marked body head.closer.1.trims ending.opener.1.trims hrest
    rw [Content.nodes, Content.tokens, Node.listPreorder, BlockPhrase.preorder_node,
      List.append_assoc, List.append_assoc,
      landmarks_tag head (.block head.inside) rfl head.inside.quiet, List.append_assoc,
      List.append_assoc]
    exact .node (.block head _ _) hbody

theorem IfRest.marked (branches : IfRest) {more : List Token} {nodes : List Node}
    (h : Marked nodes (landmarks more)) :
    Marked (Node.optionPreorder branches.otherwiseNodes ++ nodes)
      (landmarks (branches.tokens ++ more)) := by
  match branches with
  | .ended ending =>
    rw [IfRest.tokens, landmarks_wordTag ending rfl]
    exact h
  | .elseIf tag body rest =>
    have hrest := IfRest.marked rest h
    have hbody := Content.marked body tag.closer.1.trims rest.trimsBefore hrest
    rw [IfRest.otherwiseNodes, IfRest.tokens, Node.optionPreorder, Node.listPreorder_singleton,
      Node.preorder, List.append_assoc, landmarks_elseIf, List.append_assoc, List.cons_append,
      List.append_assoc]
    exact .node (.elseIf tag _ _ _) hbody
  | .otherwise tag body ending =>
    have hending := h
    rw [← landmarks_wordTag ending rfl] at hending
    have hbody := Content.marked body tag.closer.1.trims ending.opener.1.trims hending
    rw [IfRest.otherwiseNodes, IfRest.tokens, Node.optionPreorder, List.append_assoc,
      landmarks_wordTag tag rfl, List.append_assoc]
    exact hbody

end

theorem suffix_of_mem_landmarks {tokens mark : List Token} (h : mark ∈ landmarks tokens) :
    mark <:+ tokens := by
  induction tokens with
  | nil => cases h
  | cons t tokens ih =>
    rw [landmarks] at h
    split at h
    · rcases List.mem_cons.mp h with rfl | hmem
      · exact List.suffix_rfl
      · exact (ih hmem).trans (List.suffix_cons t tokens)
    · exact (ih h).trans (List.suffix_cons t tokens)

theorem Marked.exists_mark {nodes : List Node} {marks : List (List Token)}
    (h : Marked nodes marks) {n : Node} (hn : n ∈ nodes) : ∃ mark ∈ marks, n.SitsAt mark := by
  induction h with
  | nil => cases hn
  | @node m nodes mark marks hsits _ ih =>
    rcases List.mem_cons.mp hn with rfl | hmem
    · exact ⟨mark, by simp, hsits⟩
    · obtain ⟨mark', hmark, hsits'⟩ := ih hmem
      exact ⟨mark', List.mem_cons_of_mem _ hmark, hsits'⟩
  | blank _ _ ih =>
    obtain ⟨mark, hmark, hsits⟩ := ih hn
    exact ⟨mark, List.mem_cons_of_mem _ hmark, hsits⟩

theorem Node.SitsAt.exists_position {n : Node} {tokens : List Token} (h : n.SitsAt tokens) :
    ∃ t ∈ tokens, n.position = t.position := by
  cases h with
  | @text t => exact ⟨t.1, by simp, rfl⟩
  | leaf tag =>
    refine ⟨tag.opener.1, by simp [Tag.tokens], ?_⟩
    cases tag.inside <;> rfl
  | ifBlock head => exact ⟨head.opener.1, by simp [Tag.tokens], rfl⟩
  | elseIf tag => exact ⟨tag.inside.1.1, by simp [ElseIfTag.tokens, Tag.tokens], rfl⟩
  | block head =>
    refine ⟨head.opener.1, by simp [Tag.tokens], ?_⟩
    cases head.inside <;> rfl

theorem Marked.exists_position {nodes : List Node} {tokens : List Token}
    (h : Marked nodes (landmarks tokens)) {n : Node} (hn : n ∈ nodes) :
    ∃ t ∈ tokens, n.position = t.position := by
  obtain ⟨mark, hmark, hsits⟩ := h.exists_mark hn
  obtain ⟨t, ht, hposition⟩ := hsits.exists_position
  exact ⟨t, (suffix_of_mem_landmarks hmark).subset ht, hposition⟩

namespace Likeness

/-- Places where a token of the text stands, each like itself. -/
def within (text : String) : Likeness where
  place p p' := p = p' ∧ ∃ t ∈ (scan text).tokens, p = t.position
  broken e := (scan text).failure = some e

theorem streams_drawn {K : Likeness} {zone : Zone} {c : Cursor}
    (hplace : ∀ t ∈ (scanFrom zone c).tokens, K.place t.position t.position)
    (hbroken : ∀ e, (scanFrom zone c).failure = some e → K.broken e) :
    K.Streams (.drawn zone c) (.drawn zone c) := by
  fun_induction TokenStream.drawn zone c with
  | case1 zone c t hfinished =>
    rw [scanFrom_of_finished hfinished] at hplace
    exact .ended (hplace t (by simp))
  | case2 zone c e hfailed =>
    have hscan : (scanFrom zone c).failure = some e := by
      rw [scanFrom]
      split <;> simp_all
    exact .broken _ (hbroken e hscan)
  | case3 zone c t zone' c' htoken ih =>
    rw [scanFrom_of_token htoken] at hplace hbroken
    obtain ⟨ht, htokens⟩ := List.forall_mem_cons.mp hplace
    exact .next ⟨rfl, rfl, ht⟩ (ih htokens hbroken)

theorem streams_within (text : String) :
    (within text).Streams (.ofText text) (.ofText text) := by
  rw [TokenStream.ofText_eq_drawn]
  exact streams_drawn (fun t ht => ⟨rfl, t, ht, rfl⟩) fun _ h => h

theorem Attempts.place_of_parse {K : Likeness} {α β : Type} {R : α → β → Prop} {e : ParseError}
    {y : Attempt β} (h : K.Attempts R (.error (.parse e)) y) : ∃ p, K.place e.position p := by
  cases h with
  | parse hp => exact ⟨_, hp⟩

theorem Attempts.broken_of_lex {K : Likeness} {α β : Type} {R : α → β → Prop} {e : LexError}
    {y : Attempt β} (h : K.Attempts R (.error (.lex e)) y) : K.broken e := by
  cases h with
  | lex _ he => exact he

end Likeness

namespace Template

theorem attempts_within (text : String) (limit : Int) :
    (Likeness.within text).Attempts Node.Alike (Assembly.start.run limit (.ofText text))
      (Assembly.start.run limit (.ofText text)) :=
  Likeness.attempts_run .start (Likeness.streams_within text)

theorem marked_of_compile {text name : String} {limit : Int} {t : Template}
    (h : compile text name limit = .ok t) :
    Marked (Node.listPreorder t.nodes) (landmarks (scan text).tokens) := by
  obtain ⟨c, last, hscan, -, rfl⟩ := exists_content_of_compile h
  have hend : Marked [] (landmarks [.endAt last]) := .nil
  have hmarked := c.marked false false hend
  rw [hscan]
  rwa [List.append_nil] at hmarked

/-- Every place reported for a text is a place of that text: those of its tokens, of the fault that
stops the scan, and of the errors and nodes of compiling. An error of the grammar stands at a
token; a text node stands where its token starts, and any other node where its directive opens or,
for a further condition, at its `else`. -/
theorem places_of_compile (text name : String) (limit : Int) :
    (∀ t ∈ (scan text).tokens, t.position.IsPlaceIn text.toList) ∧
    (∀ e, (scan text).failure = some e → e.position.IsPlaceIn text.toList) ∧
    (∀ e, compile text name limit = .error (.lex e) → (scan text).failure = some e) ∧
    (∀ e, compile text name limit = .error (.parse e) →
      e.position.IsPlaceIn text.toList ∧ ∃ t ∈ (scan text).tokens, e.position = t.position) ∧
    ∀ t, compile text name limit = .ok t →
      Marked (Node.listPreorder t.nodes) (landmarks (scan text).tokens) ∧
      ∀ n ∈ Node.listPreorder t.nodes, n.position.IsPlaceIn text.toList := by
  obtain ⟨htokens, hfailure⟩ :=
    @places_of_scanFrom .text _ _ (Cursor.standsIn_ofText text) (by simp [Zone.opener?])
  have hattempts := attempts_within text limit
  refine ⟨htokens, hfailure, ?_, ?_, ?_⟩
  · intro e he
    rw [compile_eq_error_iff.mp he] at hattempts
    exact hattempts.broken_of_lex
  · intro e he
    rw [compile_eq_error_iff.mp he] at hattempts
    obtain ⟨p, -, t, ht, hposition⟩ := hattempts.place_of_parse
    exact ⟨hposition ▸ htokens t ht, t, ht, hposition⟩
  · intro t ht
    have hmarked := marked_of_compile ht
    refine ⟨hmarked, fun n hn => ?_⟩
    obtain ⟨token, htoken, hposition⟩ := hmarked.exists_position hn
    exact hposition ▸ htokens token htoken

/-- A further condition stands at its `else`, in the line and column that the line feed before it
leads to. -/
theorem places_of_compile_else :
    ∃ t, compile "\x7b\x7bif x\x7d\x7d\n\x7b\x7belse if y\x7d\x7d\x7b\x7bendif\x7d\x7d" "t" 1 =
        .ok t ∧
      (Node.listPreorder t.nodes).map Node.position = [⟨0, 1, 1⟩, ⟨8, 1, 9⟩, ⟨11, 2, 3⟩] ∧
      ∀ n ∈ Node.listPreorder t.nodes, n.position.IsPlaceIn
        "\x7b\x7bif x\x7d\x7d\n\x7b\x7belse if y\x7d\x7d\x7b\x7bendif\x7d\x7d".toList := by
  have htext : Cursor.ofText
      "\x7b\x7bif x\x7d\x7d\n\x7b\x7belse if y\x7d\x7d\x7b\x7bendif\x7d\x7d" =
      ⟨.start, ['{', '{', 'i', 'f', ' ', 'x', '}', '}', '\n', '{', '{', 'e', 'l', 's', 'e', ' ',
        'i', 'f', ' ', 'y', '}', '}', '{', '{', 'e', 'n', 'd', 'i', 'f', '}', '}']⟩ := by rfl
  let c : Content := .ifBlock
    ⟨⟨⟨.opener, "\x7b\x7b", ⟨0, 1, 1⟩⟩, rfl⟩, ⟨⟨⟨.keyword .ifWord, "if", ⟨2, 1, 3⟩⟩, rfl⟩,
      ⟨⟨⟨.identifier, "x", ⟨5, 1, 6⟩⟩, .inr rfl⟩, []⟩⟩, ⟨⟨.closer, "\x7d\x7d", ⟨6, 1, 7⟩⟩, rfl⟩⟩
    (.text ⟨⟨.text, "\n", ⟨8, 1, 9⟩⟩, rfl⟩ .nil)
    (.elseIf
      ⟨⟨⟨.opener, "\x7b\x7b", ⟨9, 2, 1⟩⟩, rfl⟩, (⟨⟨.keyword .elseWord, "else", ⟨11, 2, 3⟩⟩, rfl⟩,
        ⟨⟨⟨.keyword .ifWord, "if", ⟨16, 2, 8⟩⟩, rfl⟩,
          ⟨⟨⟨.identifier, "y", ⟨19, 2, 11⟩⟩, .inr rfl⟩, []⟩⟩),
        ⟨⟨.closer, "\x7d\x7d", ⟨20, 2, 12⟩⟩, rfl⟩⟩
      .nil
      (.ended ⟨⟨⟨.opener, "\x7b\x7b", ⟨22, 2, 14⟩⟩, rfl⟩,
        ⟨⟨.keyword .endifWord, "endif", ⟨24, 2, 16⟩⟩, rfl⟩,
        ⟨⟨.closer, "\x7d\x7d", ⟨29, 2, 21⟩⟩, rfl⟩⟩))
    .nil
  have hscan : scan "\x7b\x7bif x\x7d\x7d\n\x7b\x7belse if y\x7d\x7d\x7b\x7bendif\x7d\x7d" =
      ⟨c.tokens ++ [.endAt ⟨31, 2, 23⟩], none⟩ := by
    rw [scan, htext, scanFrom_of_token rfl, scanFrom_of_token rfl, scanFrom_of_token rfl,
      scanFrom_of_token rfl, scanFrom_of_token rfl, scanFrom_of_token rfl, scanFrom_of_token rfl,
      scanFrom_of_token rfl, scanFrom_of_token rfl, scanFrom_of_token rfl, scanFrom_of_token rfl,
      scanFrom_of_token rfl, scanFrom_of_token rfl, scanFrom_of_finished rfl]
    rfl
  have hcompile : compile
      "\x7b\x7bif x\x7d\x7d\n\x7b\x7belse if y\x7d\x7d\x7b\x7bendif\x7d\x7d" "t" 1 =
      .ok ⟨"t", [.ifBlock ⟨0, 1, 1⟩ ⟨["x"], false⟩ [.text ⟨8, 1, 9⟩ "\n"]
        (some [.ifBlock ⟨11, 2, 3⟩ ⟨["y"], false⟩ [] none])]⟩ := by
    refine compile_eq_ok_iff.mpr ⟨c, ⟨31, 2, 23⟩, ?_, by decide, rfl⟩
    rw [TokenStream.ofText, TokenStream.ofScanned, hscan]
    rfl
  have hplaces := places_of_compile
    "\x7b\x7bif x\x7d\x7d\n\x7b\x7belse if y\x7d\x7d\x7b\x7bendif\x7d\x7d" "t" 1
  exact ⟨_, hcompile, by simp [Node.listPreorder, Node.preorder, Node.optionPreorder,
    Node.position], (hplaces.2.2.2.2 _ hcompile).2⟩

end Template

end TextTemplate
