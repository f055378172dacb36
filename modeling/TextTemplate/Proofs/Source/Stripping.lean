import TextTemplate.Proofs.Source.Landmark

/-! Which blanks a template leaves out. What its text nodes say is what the texts of its source say,
less the blanks beside the delimiters that have a dash. -/

namespace TextTemplate

/-- The nodes of the texts among the tokens. Each text loses the blanks on a side where a delimiter
with a dash stands right beside it, and all of it when nothing else remains; `before` says whether
a closer with a dash stands in front of the tokens. -/
def remainingTexts (before : Bool) : List Token → List Node
  | [] => []
  | t :: rest =>
    (if t.kind = .text then textNodes t before (opensTrimming false rest) else []) ++
      remainingTexts (t.kind == .closer && t.trims) rest

theorem remainingTexts_quiet {tokens : List Token} (h : Quiet tokens) (before : Bool)
    {closer : Token} (hcloser : closer.kind = .closer) (more : List Token) :
    remainingTexts before (tokens ++ closer :: more) = remainingTexts closer.trims more := by
  induction tokens generalizing before with
  | nil => simp [remainingTexts, hcloser]
  | cons t tokens ih =>
    obtain ⟨ht, htokens⟩ := quiet_cons.mp h
    have hkind : t.kind ≠ .text := by
      intro htext
      simp [htext, TokenKind.isQuiet] at ht
    rw [List.cons_append, remainingTexts, if_neg hkind, List.nil_append, ih htokens]

/-- A directive has no texts, and only its closer counts for the text behind it. -/
theorem remainingTexts_tag {α : Type} {inner : α → List Token} (tag : Tag α)
    (h : Quiet (inner tag.inside)) (before : Bool) (more : List Token) :
    remainingTexts before (tag.tokens inner ++ more) =
      remainingTexts tag.closer.1.trims more := by
  have hopener : tag.opener.1.kind ≠ .text := by simp [tag.opener.2]
  rw [Tag.tokens, List.cons_append, remainingTexts, if_neg hopener, List.nil_append,
    List.append_assoc]
  exact remainingTexts_quiet h _ tag.closer.2 more

theorem remainingTexts_wordTag {word : Keyword} (tag : WordTag word) (before : Bool)
    (more : List Token) :
    remainingTexts before (tag.tokens ++ more) = remainingTexts tag.closer.1.trims more :=
  remainingTexts_tag tag (by simpa using tag.inside.isQuiet rfl) before more

theorem remainingTexts_elseIf (tag : ElseIfTag) (before : Bool) (more : List Token) :
    remainingTexts before (tag.tokens ++ more) = remainingTexts tag.closer.1.trims more :=
  have hquiet := quiet_cons.mpr ⟨tag.inside.1.isQuiet rfl, tag.inside.2.quiet⟩
  remainingTexts_tag tag hquiet before more

theorem opensTrimming_append (tokens more : List Token) :
    opensTrimming false (tokens ++ more) = opensTrimming (opensTrimming false more) tokens := by
  cases tokens <;> rfl

theorem texts_cons_of_not_isText {n : Node} {inner : List Node} (h : n.isText = false)
    (hn : n.preorder = n :: inner) (nodes : List Node) :
    (Node.listPreorder (n :: nodes)).filter Node.isText =
      inner.filter Node.isText ++ (Node.listPreorder nodes).filter Node.isText := by
  rw [Node.listPreorder, hn, List.cons_append, List.filter_cons_of_neg (by simp [h]),
    List.filter_append]

theorem texts_textNodes (t : Token) (before behind : Bool) :
    (Node.listPreorder (textNodes t before behind)).filter Node.isText =
      textNodes t before behind := by
  rw [textNodes]
  split <;> rfl

mutual

/-- The texts behind a content are left as they are where they do not depend on what stands in
front of them: a content ends at a directive, or at the end of the input. -/
theorem Content.texts_eq (c : Content) (before : Bool) {more : List Token} {texts : List Node}
    (h : ∀ before, remainingTexts before more = texts) :
    remainingTexts before (c.tokens ++ more) =
      (Node.listPreorder (c.nodes before (opensTrimming false more))).filter Node.isText ++
        texts := by
  match c with
  | .nil => exact h before
  | .text t rest =>
    have hrest := Content.texts_eq rest false h
    have hcloser : (t.1.kind == .closer && t.1.trims) = false := by simp [t.2]
    rw [Content.tokens, List.cons_append, remainingTexts, if_pos t.2, opensTrimming_append,
      hcloser, hrest, Content.nodes, Node.listPreorder_append, List.filter_append,
      texts_textNodes, List.append_assoc]
  | .leaf tag rest =>
    have hrest := Content.texts_eq rest tag.closer.1.trims h
    rw [Content.tokens, List.append_assoc, remainingTexts_tag tag tag.inside.quiet, hrest,
      Content.nodes, texts_cons_of_not_isText (tag.inside.isText_node _)
        (tag.inside.preorder_node _), List.filter_nil, List.nil_append]
  | .ifBlock head body branches rest =>
    have hrest := Content.texts_eq rest branches.trimsBehind h
    have hbranches (before : Bool) := IfRest.texts_eq branches before (rest.tokens ++ more)
    simp only [hrest] at hbranches
    have hbody := Content.texts_eq body head.closer.1.trims hbranches
    rw [Assembly.opensTrimming_rest] at hbody
    rw [Content.tokens, List.append_assoc, List.append_assoc, List.append_assoc,
      remainingTexts_tag head head.inside.quiet, hbody, Content.nodes,
      texts_cons_of_not_isText rfl (by rw [Node.preorder]), List.filter_append,
      List.append_assoc, List.append_assoc]
  | .block head body ending rest =>
    have hrest := Content.texts_eq rest ending.closer.1.trims h
    have hending (before : Bool) := remainingTexts_wordTag ending before (rest.tokens ++ more)
    simp only [hrest] at hending
    have hbody := Content.texts_eq body head.closer.1.trims hending
    rw [Assembly.opensTrimming_ending] at hbody
    rw [Content.tokens, List.append_assoc, List.append_assoc, List.append_assoc,
      remainingTexts_tag head head.inside.quiet, hbody, Content.nodes,
      texts_cons_of_not_isText (head.inside.isText_node _ _) (head.inside.preorder_node _ _),
      List.append_assoc]

theorem IfRest.texts_eq (branches : IfRest) (before : Bool) (more : List Token) :
    remainingTexts before (branches.tokens ++ more) =
      (Node.optionPreorder branches.otherwiseNodes).filter Node.isText ++
        remainingTexts branches.trimsBehind more := by
  match branches with
  | .ended ending => exact remainingTexts_wordTag ending before more
  | .elseIf tag body rest =>
    have hrest (before : Bool) := IfRest.texts_eq rest before more
    have hbody := Content.texts_eq body tag.closer.1.trims hrest
    rw [Assembly.opensTrimming_rest] at hbody
    rw [IfRest.tokens, List.append_assoc, List.append_assoc, remainingTexts_elseIf, hbody,
      IfRest.otherwiseNodes, Node.optionPreorder,
      texts_cons_of_not_isText rfl (by rw [Node.preorder]), List.filter_append]
    simp [Node.listPreorder, IfRest.trimsBehind]
  | .otherwise tag body ending =>
    have hending (before : Bool) := remainingTexts_wordTag ending before more
    have hbody := Content.texts_eq body tag.closer.1.trims hending
    rw [Assembly.opensTrimming_ending] at hbody
    rw [IfRest.tokens, List.append_assoc, List.append_assoc, remainingTexts_wordTag, hbody]
    rfl

end

namespace Template

/-- The text nodes of a template, in its order, are the texts of its source, in theirs: each is
stripped in front of an opener and behind a closer with a dash and nowhere else, and it is missing
if nothing is left of it. -/
theorem texts_of_compile {text name : String} {limit : Int} {t : Template}
    (h : compile text name limit = .ok t) :
    (Node.listPreorder t.nodes).filter Node.isText = remainingTexts false (scan text).tokens := by
  obtain ⟨c, last, hscan, -, rfl⟩ := exists_content_of_compile h
  have hend (before : Bool) : remainingTexts before [.endAt last] = [] := rfl
  have htexts := c.texts_eq false hend
  rw [List.append_nil] at htexts
  rw [hscan]
  exact htexts.symm

/-- A text behind a closer with a dash keeps the blank at its other end, and one between two dashes
has nothing left. -/
theorem texts_of_compile_branches :
    ∃ t, compile "\x7b\x7bif x-\x7d\x7d a \x7b\x7belse-\x7d\x7d \x7b\x7b-endif\x7d\x7d b" "t" 1 =
        .ok t ∧
      (Node.listPreorder t.nodes).filter Node.isText =
        [.text ⟨9, 1, 10⟩ "a ", .text ⟨32, 1, 33⟩ " b"] := by
  have htext : Cursor.ofText
      "\x7b\x7bif x-\x7d\x7d a \x7b\x7belse-\x7d\x7d \x7b\x7b-endif\x7d\x7d b" =
      ⟨.start, ['{', '{', 'i', 'f', ' ', 'x', '-', '}', '}', ' ', 'a', ' ', '{', '{', 'e', 'l', 's',
        'e', '-', '}', '}', ' ', '{', '{', '-', 'e', 'n', 'd', 'i', 'f', '}', '}', ' ', 'b']⟩ := by
    rfl
  let c : Content := .ifBlock
    ⟨⟨⟨.opener, "\x7b\x7b", ⟨0, 1, 1⟩⟩, rfl⟩, ⟨⟨⟨.keyword .ifWord, "if", ⟨2, 1, 3⟩⟩, rfl⟩,
      ⟨⟨⟨.identifier, "x", ⟨5, 1, 6⟩⟩, .inr rfl⟩, []⟩⟩, ⟨⟨.closer, "-\x7d\x7d", ⟨6, 1, 7⟩⟩, rfl⟩⟩
    (.text ⟨⟨.text, " a ", ⟨9, 1, 10⟩⟩, rfl⟩ .nil)
    (.otherwise
      ⟨⟨⟨.opener, "\x7b\x7b", ⟨12, 1, 13⟩⟩, rfl⟩, ⟨⟨.keyword .elseWord, "else", ⟨14, 1, 15⟩⟩, rfl⟩,
        ⟨⟨.closer, "-\x7d\x7d", ⟨18, 1, 19⟩⟩, rfl⟩⟩
      (.text ⟨⟨.text, " ", ⟨21, 1, 22⟩⟩, rfl⟩ .nil)
      ⟨⟨⟨.opener, "\x7b\x7b-", ⟨22, 1, 23⟩⟩, rfl⟩,
        ⟨⟨.keyword .endifWord, "endif", ⟨25, 1, 26⟩⟩, rfl⟩,
        ⟨⟨.closer, "\x7d\x7d", ⟨30, 1, 31⟩⟩, rfl⟩⟩)
    (.text ⟨⟨.text, " b", ⟨32, 1, 33⟩⟩, rfl⟩ .nil)
  have hscan : scan "\x7b\x7bif x-\x7d\x7d a \x7b\x7belse-\x7d\x7d \x7b\x7b-endif\x7d\x7d b" =
      ⟨c.tokens ++ [.endAt ⟨34, 1, 35⟩], none⟩ := by
    rw [scan, htext, scanFrom_of_token rfl, scanFrom_of_token rfl, scanFrom_of_token rfl,
      scanFrom_of_token rfl, scanFrom_of_token rfl, scanFrom_of_token rfl, scanFrom_of_token rfl,
      scanFrom_of_token rfl, scanFrom_of_token rfl, scanFrom_of_token rfl, scanFrom_of_token rfl,
      scanFrom_of_token rfl, scanFrom_of_token rfl, scanFrom_of_finished rfl]
    rfl
  have hcompile : compile
      "\x7b\x7bif x-\x7d\x7d a \x7b\x7belse-\x7d\x7d \x7b\x7b-endif\x7d\x7d b" "t" 1 =
      .ok ⟨"t", c.nodes false false⟩ := by
    refine compile_eq_ok_iff.mpr ⟨c, ⟨34, 1, 35⟩, ?_, by decide, rfl⟩
    rw [TokenStream.ofText, TokenStream.ofScanned, hscan]
    rfl
  refine ⟨_, hcompile, ?_⟩
  rw [texts_of_compile hcompile, hscan]
  rfl

end Template

end TextTemplate
