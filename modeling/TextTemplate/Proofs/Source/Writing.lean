import TextTemplate.Proofs.Source.Tag

/-! Characters for well-formed nodes. The contents that the scan finds on them have those nodes and
open no more blocks at once than these are nested. A text that ends in an opening brace has a blank
behind it, which the dash of the next directive strips again. -/

namespace TextTemplate

/-- A text that ends in an opening brace needs a blank behind it when a directive follows. -/
def needsBlank (closing : Bool) (text : String) (nodes : List Node) : Bool :=
  text.toList.getLast? == some '{' && (closing || !nodes.isEmpty)

/-- Whether the directive behind the nodes opens with a dash; `dash` answers for no nodes. -/
def dashBehind (closing : Bool) : Bool → List Node → Bool
  | dash, [] => dash
  | _, .text _ text :: nodes => dashBehind closing (needsBlank closing text nodes) nodes
  | _, _ :: nodes => dashBehind closing false nodes

theorem dashBehind_of_not_text {n : Node} (h : n.isText = false) (closing dash : Bool)
    (nodes : List Node) :
    dashBehind closing dash (n :: nodes) = dashBehind closing false nodes := by
  cases n with
  | text => cases h
  | comment | value | ifBlock | forBlock | withBlock | call => rfl

theorem dashBehind_false (nodes : List Node) : dashBehind false false nodes = false := by
  induction nodes with
  | nil => rfl
  | cons n nodes ih =>
    cases n with
    | text position text =>
      -- A node behind the text overrides what the text asks for.
      cases nodes with
      | nil => simp [dashBehind, needsBlank]
      | cons m nodes => cases m <;> exact ih
    | comment | value | ifBlock | forBlock | withBlock | call => exact ih

def textChars (blank : Bool) (text : String) : List Char :=
  if blank then text.toList ++ [' '] else text.toList

theorem strippedText_textChars {blank : Bool} {text : String}
    (h : blank = true → text.toList.getLast? = some '{') :
    strippedText (String.ofList (textChars blank text)) false blank = text := by
  cases blank with
  | false => simp [strippedText, textChars]
  | true =>
    have htrim := trimEnd_append_blank (c := '{') rfl (h rfl)
    rw [String.ofList_toList] at htrim
    exact htrim

theorem textChars_ne_nil {text : String} (h : text ≠ "") (blank : Bool) :
    textChars blank text ≠ [] := by
  cases blank <;> simp [textChars, h]

theorem not_hasDouble_textChars {text : String} (h : ¬ HasDouble '{' text.toList) (blank : Bool) :
    ¬ HasDouble '{' (textChars blank text) := by
  cases blank with
  | false => exact h
  | true => exact not_hasDouble_concat (by decide) h

/-- A text that ends in an opening brace without a blank ends the input. -/
theorem getLast?_textChars (closing : Bool) (text : String) (nodes : List Node) :
    (textChars (needsBlank closing text nodes) text).getLast? ≠ some '{' ∨
      closing = false ∧ nodes = [] := by
  by_cases hblank : needsBlank closing text nodes = true
  · refine .inl ?_
    simp [hblank, textChars]
  · simp only [needsBlank, Bool.and_eq_true, beq_iff_eq, not_and, Bool.or_eq_true, not_or] at hblank
    by_cases hlast : text.toList.getLast? = some '{'
    · obtain ⟨hclosing, hnodes⟩ := hblank hlast
      refine .inr ⟨by simpa using hclosing, ?_⟩
      simpa using hnodes
    · refine .inl ?_
      simp [needsBlank, textChars, hlast]

/-- What follows a content: a directive with or without a dash, or the end of the input. -/
def Follows (closing dash : Bool) (rest : List Char) : Prop :=
  if closing then openerChars dash <+: rest else rest = []

/-- The content stands on the characters, and its nodes are the given ones. -/
structure Content.Written (closing dash : Bool) (p : Position) (nodes : List Node)
    (cs : List Char) (c : Content) : Prop where
  same : Node.sameList (c.nodes false (dashBehind closing dash nodes)) nodes = true
  mostOpen_le : c.mostOpen ≤ Node.listNesting nodes
  opens : Node.beginsWithText nodes = false →
    opensTrimming (dashBehind closing dash nodes) c.tokens = dash
  empty : nodes = [] → cs = []
  lead : Node.beginsWithText nodes = false → nodes ≠ [] → openerChars dash <+: cs
  scans : ∀ rest, Follows closing (dashBehind closing dash nodes) rest → Scans p cs c.tokens rest

/-- The branches stand on the characters, and make the given else part. -/
structure IfRest.Written (dash : Bool) (p : Position) (otherwise : Option (List Node))
    (cs : List Char) (branches : IfRest) : Prop where
  same : Node.sameOption branches.otherwiseNodes otherwise = true
  mostOpen_le : branches.mostOpen ≤ Node.otherwiseNesting otherwise
  opens : branches.trimsBefore = dash
  closes : branches.trimsBehind = false
  lead : openerChars dash <+: cs
  scans : ∀ rest, Scans p cs branches.tokens rest

namespace Content.Written

variable {closing dash : Bool} {p : Position} {nodes : List Node} {cs cs' : List Char} {c : Content}

theorem nil : Written closing dash p [] [] .nil where
  same := rfl
  mostOpen_le := Nat.le_refl 0
  opens _ := rfl
  empty _ := rfl
  lead _ hne := absurd rfl hne
  scans := fun rest _ => Scans.nil p rest

theorem scans_before (h : Written true false p nodes cs c)
    (hlead : openerChars (dashBehind true false nodes) <+: cs') (rest : List Char) :
    Scans p cs c.tokens (cs' ++ rest) :=
  h.scans _ (hlead.trans (List.prefix_append cs' rest))

theorem leaf {n : Node} {tag : Tag LeafPhrase} (htext : n.isText = false)
    (htag : tag.Written LeafPhrase.tokens dash p cs)
    (hn : ∀ position, (tag.inside.node position).same n = true)
    (h : Written closing false (p.advance cs) nodes cs' c) :
    Written closing dash p (n :: nodes) (cs ++ cs') (.leaf tag c) := by
  have hdash := dashBehind_of_not_text htext closing dash nodes
  refine ⟨?_, ?_, ?_, by simp, ?_, ?_⟩
  · rw [hdash, Content.nodes, htag.closes, Node.sameList, hn, h.same]
    rfl
  · rw [Content.mostOpen, Node.listNesting]
    exact Nat.le_trans h.mostOpen_le (Nat.le_max_right _ _)
  · rw [Content.tokens]
    exact fun _ => htag.opensTrimming_append _ _
  · exact fun _ _ => htag.lead.trans (List.prefix_append cs cs')
  · intro rest hrest
    rw [hdash] at hrest
    exact (htag.scans _).append (h.scans rest hrest)

theorem behind_text {rest : List Char} (h : Written closing dash p nodes cs c)
    (hnodes : Node.beginsWithText nodes = false)
    (hrest : Follows closing (dashBehind closing dash nodes) rest) :
    cs ++ rest = [] ∨ ['{', '{'] <+: cs ++ rest := by
  by_cases hempty : nodes = []
  · subst hempty
    rw [h.empty rfl]
    cases closing with
    | false => exact .inl hrest
    | true => exact .inr ((braces_prefix_openerChars dash).trans hrest)
  · have hlead := (h.lead hnodes hempty).trans (List.prefix_append cs rest)
    exact .inr ((braces_prefix_openerChars dash).trans hlead)

theorem text {position : Position} {text : String} (hne : text ≠ "")
    (hdouble : ¬ HasDouble '{' text.toList) (hnodes : Node.beginsWithText nodes = false)
    (h : Written closing (needsBlank closing text nodes)
      (p.advance (textChars (needsBlank closing text nodes) text)) nodes cs c) :
    Written closing dash p (.text position text :: nodes)
      (textChars (needsBlank closing text nodes) text ++ cs)
      (.text ⟨⟨.text, String.ofList (textChars (needsBlank closing text nodes) text), p⟩, rfl⟩
        c) := by
  have hdash : dashBehind closing dash (.text position text :: nodes) =
      dashBehind closing (needsBlank closing text nodes) nodes := rfl
  have hstripped : strippedText (String.ofList (textChars (needsBlank closing text nodes) text))
      false (needsBlank closing text nodes) = text := by
    refine strippedText_textChars fun hblank => ?_
    simp only [needsBlank, Bool.and_eq_true, beq_iff_eq] at hblank
    exact hblank.1
  refine ⟨?_, ?_, ?_, by simp, ?_, ?_⟩
  · rw [hdash, Content.nodes, h.opens hnodes]
    simp [textNodes, hstripped, hne, Node.sameList, Node.same, h.same]
  · rw [Content.mostOpen, Node.listNesting]
    exact Nat.le_trans h.mostOpen_le (Nat.le_max_right _ _)
  · simp [Node.beginsWithText, Node.isText]
  · simp [Node.beginsWithText, Node.isText]
  · intro rest hrest
    rw [hdash] at hrest
    refine Scans.append (scans_text (textChars_ne_nil hne _) (not_hasDouble_textChars hdouble _)
      ?_ (h.behind_text hnodes hrest)) (h.scans rest hrest)
    rcases getLast?_textChars closing text nodes with hlast | ⟨rfl, rfl⟩
    · exact .inl hlast
    · exact .inr (by simpa [h.empty rfl, Follows] using hrest)

section Blocks

variable {body : List Node} {cs₁ cs₂ cs₃ cs₄ : List Char} {c₁ c₂ : Content}

theorem block {n : Node} {head : Tag BlockPhrase} {ending : WordTag head.inside.kind.closer}
    (htext : n.isText = false) (hnesting : n.nesting = Node.listNesting body + 1)
    (hn : ∀ position nodes, Node.sameList nodes body = true →
      (head.inside.node position nodes).same n = true)
    (hhead : head.Written BlockPhrase.tokens dash p cs₁)
    (hbody : c₁.Written true false (p.advance cs₁) body cs₂)
    (hending : ending.Written (fun t => [t.1]) (dashBehind true false body)
      (p.advance (cs₁ ++ cs₂)) cs₃)
    (hrest : c₂.Written closing false (p.advance (cs₁ ++ cs₂ ++ cs₃)) nodes cs₄) :
    Written closing dash p (n :: nodes) (cs₁ ++ cs₂ ++ cs₃ ++ cs₄)
      (.block head c₁ ending c₂) := by
  have hdash := dashBehind_of_not_text htext closing dash nodes
  refine ⟨?_, ?_, ?_, by simp, ?_, ?_⟩
  · rw [hdash, Content.nodes, hhead.closes, hending.opens, hending.closes, Node.sameList,
      hn _ _ hbody.same, hrest.same]
    rfl
  · have hopen := hbody.mostOpen_le
    have hopen' := hrest.mostOpen_le
    rw [Content.mostOpen, Node.listNesting, hnesting]
    omega
  · rw [Content.tokens]
    exact fun _ => hhead.opensTrimming_append _ _
  · simp only [List.append_assoc]
    exact fun _ _ => hhead.lead.trans (List.prefix_append _ _)
  · intro rest hfollows
    rw [hdash] at hfollows
    have htokens := (((hhead.scans _).append (hbody.scans_before hending.lead _)).append
      (hending.scans _)).append (hrest.scans rest hfollows)
    rw [Content.tokens, WordTag.tokens]
    simpa only [List.append_assoc] using htokens

theorem ifBlock {position : Position} {condition : Path} {otherwise : Option (List Node)}
    {head : Tag IfPhrase} {branches : IfRest} (hcondition : head.inside.condition.path = condition)
    (hhead : head.Written IfPhrase.tokens dash p cs₁)
    (hbody : c₁.Written true false (p.advance cs₁) body cs₂)
    (hbranches : branches.Written (dashBehind true false body) (p.advance (cs₁ ++ cs₂)) otherwise
      cs₃)
    (hrest : c₂.Written closing false (p.advance (cs₁ ++ cs₂ ++ cs₃)) nodes cs₄) :
    Written closing dash p (.ifBlock position condition body otherwise :: nodes)
      (cs₁ ++ cs₂ ++ cs₃ ++ cs₄) (.ifBlock head c₁ branches c₂) := by
  have hdash := dashBehind_of_not_text (n := .ifBlock position condition body otherwise) rfl closing
    dash nodes
  refine ⟨?_, ?_, ?_, by simp, ?_, ?_⟩
  · rw [hdash, Content.nodes, hhead.closes, hbranches.opens, hbranches.closes, Node.sameList,
      hrest.same, Node.same, hcondition, hbody.same, hbranches.same]
    simp
  · have hopen := hbody.mostOpen_le
    have hopen' := hbranches.mostOpen_le
    have hopen'' := hrest.mostOpen_le
    rw [Content.mostOpen, Node.listNesting, Node.nesting]
    omega
  · rw [Content.tokens]
    exact fun _ => hhead.opensTrimming_append _ _
  · simp only [List.append_assoc]
    exact fun _ _ => hhead.lead.trans (List.prefix_append _ _)
  · intro rest hfollows
    rw [hdash] at hfollows
    have htokens := (((hhead.scans _).append (hbody.scans_before hbranches.lead _)).append
      (hbranches.scans _)).append (hrest.scans rest hfollows)
    rw [Content.tokens]
    simpa only [List.append_assoc] using htokens

end Blocks

end Content.Written

namespace IfRest.Written

variable {dash : Bool} {p : Position} {cs₁ cs₂ cs₃ : List Char}

theorem ended {ending : WordTag .endifWord} (h : ending.Written (fun t => [t.1]) dash p cs₁) :
    Written dash p none cs₁ (.ended ending) where
  same := rfl
  mostOpen_le := Nat.le_refl 0
  opens := h.opens
  closes := h.closes
  lead := h.lead
  scans := h.scans

theorem elseIf {position : Position} {condition : Path} {body : List Node}
    {otherwise : Option (List Node)} {tag : ElseIfTag} {c : Content} {branches : IfRest}
    (hcondition : tag.inside.2.condition.path = condition)
    (htag : tag.Written (fun part => part.1.1 :: part.2.tokens) dash p cs₁)
    (hbody : c.Written true false (p.advance cs₁) body cs₂)
    (hbranches : branches.Written (dashBehind true false body) (p.advance (cs₁ ++ cs₂)) otherwise
      cs₃) :
    Written dash p (some [.ifBlock position condition body otherwise]) (cs₁ ++ cs₂ ++ cs₃)
      (.elseIf tag c branches) := by
  refine ⟨?_, ?_, htag.opens, hbranches.closes, ?_, ?_⟩
  · rw [IfRest.otherwiseNodes, htag.closes, hbranches.opens, Node.sameOption, Node.sameList,
      Node.same, hcondition, hbody.same, hbranches.same]
    simp [Node.sameList]
  · have hopen := hbody.mostOpen_le
    have hopen' := hbranches.mostOpen_le
    rw [IfRest.mostOpen, Node.otherwiseNesting]
    omega
  · rw [List.append_assoc]
    exact htag.lead.trans (List.prefix_append _ _)
  · intro rest
    have htokens := ((htag.scans _).append (hbody.scans_before hbranches.lead _)).append
      (hbranches.scans rest)
    rw [IfRest.tokens, ElseIfTag.tokens]
    simpa only [List.append_assoc] using htokens

theorem otherwise {nodes : List Node} {tag : WordTag .elseWord} {c : Content}
    {ending : WordTag .endifWord} (hchained : Node.isChained nodes = false)
    (htag : tag.Written (fun t => [t.1]) dash p cs₁)
    (hbody : c.Written true false (p.advance cs₁) nodes cs₂)
    (hending : ending.Written (fun t => [t.1]) (dashBehind true false nodes)
      (p.advance (cs₁ ++ cs₂)) cs₃) :
    Written dash p (some nodes) (cs₁ ++ cs₂ ++ cs₃) (.otherwise tag c ending) := by
  refine ⟨?_, ?_, htag.opens, hending.closes, ?_, ?_⟩
  · rw [IfRest.otherwiseNodes, htag.closes, hending.opens, Node.sameOption, hbody.same]
  · rw [IfRest.mostOpen, Node.otherwiseNesting_some, hchained]
    exact hbody.mostOpen_le
  · rw [List.append_assoc]
    exact htag.lead.trans (List.prefix_append _ _)
  · intro rest
    have htokens := ((htag.scans _).append (hbody.scans_before hending.lead _)).append
      (hending.scans rest)
    rw [IfRest.tokens, WordTag.tokens, WordTag.tokens]
    simpa only [List.append_assoc] using htokens

end IfRest.Written

theorem Node.exists_ifBlock_of_isChained {nodes : List Node} (h : isChained nodes = true) :
    ∃ position condition body otherwise, nodes = [.ifBlock position condition body otherwise] := by
  unfold isChained at h
  split at h
  · exact ⟨_, _, _, _, rfl⟩
  · cases h

mutual

/-- Well-formed nodes can be written at any place. -/
theorem exists_content {nodes : List Node} (h : Node.ListWellFormed nodes) (closing dash : Bool)
    (p : Position) :
    ∃ (cs : List Char) (c : Content), c.Written closing dash p nodes cs := by
  match nodes with
  | [] => exact ⟨[], .nil, .nil⟩
  | .text position text :: nodes =>
    rw [Node.ListWellFormed, Node.WellFormed] at h
    obtain ⟨⟨hne, hdouble⟩, hapart, hnodes⟩ := h
    -- No text follows, so the dash that this one needs goes to the directive right behind it.
    obtain ⟨cs, c, hc⟩ := exists_content hnodes closing (needsBlank closing text nodes)
      (p.advance (textChars (needsBlank closing text nodes) text))
    exact ⟨_, _, .text hne hdouble (by simpa [Node.isText] using hapart) hc⟩
  | .comment position text :: nodes =>
    rw [Node.ListWellFormed, Node.WellFormed] at h
    obtain ⟨⟨htrim, hdouble⟩, -, hnodes⟩ := h
    obtain ⟨cs₁, tag, hnode, htag⟩ := exists_commentTag dash p htrim hdouble
    obtain ⟨cs₂, c, hc⟩ := exists_content hnodes closing false (p.advance cs₁)
    exact ⟨_, _, .leaf rfl htag (fun _ => by rw [hnode]; simp [Node.same]) hc⟩
  | .value position path formatter :: nodes =>
    rw [Node.ListWellFormed, Node.WellFormed] at h
    obtain ⟨⟨hpath, hformatter⟩, -, hnodes⟩ := h
    obtain ⟨cs₁, tag, hnode, htag⟩ := exists_valueTag dash p hpath hformatter
    obtain ⟨cs₂, c, hc⟩ := exists_content hnodes closing false (p.advance cs₁)
    exact ⟨_, _, .leaf rfl htag (fun _ => by rw [hnode]; simp [Node.same]) hc⟩
  | .call position name root arguments :: nodes =>
    rw [Node.ListWellFormed, Node.WellFormed] at h
    obtain ⟨⟨hroot, harguments, hdistinct⟩, -, hnodes⟩ := h
    obtain ⟨cs₁, tag, hnode, htag⟩ := exists_callTag dash p name hroot harguments hdistinct
    obtain ⟨cs₂, c, hc⟩ := exists_content hnodes closing false (p.advance cs₁)
    exact ⟨_, _, .leaf rfl htag (fun _ => by rw [hnode]; simp [Node.same]) hc⟩
  | .forBlock position item index source body :: nodes =>
    rw [Node.ListWellFormed, Node.WellFormed] at h
    obtain ⟨⟨hitem, hindex, hsource, hbody⟩, -, hnodes⟩ := h
    obtain ⟨cs₁, head, hnode, hhead⟩ := exists_forTag dash p hitem hindex hsource
    obtain ⟨cs₂, c₁, hc₁⟩ := exists_content hbody true false (p.advance cs₁)
    obtain ⟨cs₃, ending, hending⟩ := exists_wordTag (dashBehind true false body)
      (p.advance (cs₁ ++ cs₂)) head.inside.kind.closer
    obtain ⟨cs₄, c₂, hc₂⟩ := exists_content hnodes closing false (p.advance (cs₁ ++ cs₂ ++ cs₃))
    refine ⟨_, _, .block rfl ?_ (fun _ _ hsame => ?_) hhead hc₁ hending hc₂⟩
    · rw [Node.nesting]
    · rw [hnode]
      simp [Node.same, hsame]
  | .withBlock position name source body :: nodes =>
    rw [Node.ListWellFormed, Node.WellFormed] at h
    obtain ⟨⟨hname, hsource, hbody⟩, -, hnodes⟩ := h
    obtain ⟨cs₁, head, hnode, hhead⟩ := exists_withTag dash p hname hsource
    obtain ⟨cs₂, c₁, hc₁⟩ := exists_content hbody true false (p.advance cs₁)
    obtain ⟨cs₃, ending, hending⟩ := exists_wordTag (dashBehind true false body)
      (p.advance (cs₁ ++ cs₂)) head.inside.kind.closer
    obtain ⟨cs₄, c₂, hc₂⟩ := exists_content hnodes closing false (p.advance (cs₁ ++ cs₂ ++ cs₃))
    refine ⟨_, _, .block rfl ?_ (fun _ _ hsame => ?_) hhead hc₁ hending hc₂⟩
    · rw [Node.nesting]
    · rw [hnode]
      simp [Node.same, hsame]
  | .ifBlock position condition body otherwise :: nodes =>
    rw [Node.ListWellFormed, Node.WellFormed] at h
    obtain ⟨⟨hcondition, hbody, hotherwise⟩, -, hnodes⟩ := h
    obtain ⟨cs₁, head, hpath, hhead⟩ := exists_ifTag dash p hcondition
    obtain ⟨cs₂, c₁, hc₁⟩ := exists_content hbody true false (p.advance cs₁)
    obtain ⟨cs₃, branches, hbranches⟩ := exists_branches hotherwise (dashBehind true false body)
      (p.advance (cs₁ ++ cs₂))
    obtain ⟨cs₄, c₂, hc₂⟩ := exists_content hnodes closing false (p.advance (cs₁ ++ cs₂ ++ cs₃))
    exact ⟨_, _, .ifBlock hpath hhead hc₁ hbranches hc₂⟩
termination_by sizeOf nodes

theorem exists_branches {otherwise : Option (List Node)} (h : Node.OptionWellFormed otherwise)
    (dash : Bool) (p : Position) :
    ∃ (cs : List Char) (branches : IfRest), branches.Written dash p otherwise cs := by
  match otherwise with
  | none =>
    obtain ⟨cs, ending, hending⟩ := exists_wordTag dash p .endifWord
    exact ⟨cs, .ended ending, .ended hending⟩
  | some nodes =>
    rw [Node.OptionWellFormed] at h
    -- A lone if-block is written as a further condition, for it opens no block of its own.
    by_cases hchained : Node.isChained nodes = true
    · obtain ⟨position, condition, body, otherwise, rfl⟩ :=
        Node.exists_ifBlock_of_isChained hchained
      rw [Node.ListWellFormed, Node.WellFormed] at h
      obtain ⟨⟨hcondition, hbody, hotherwise⟩, -, -⟩ := h
      obtain ⟨cs₁, tag, hpath, htag⟩ := exists_elseIfTag dash p hcondition
      obtain ⟨cs₂, c, hc⟩ := exists_content hbody true false (p.advance cs₁)
      obtain ⟨cs₃, branches, hbranches⟩ := exists_branches hotherwise (dashBehind true false body)
        (p.advance (cs₁ ++ cs₂))
      exact ⟨_, _, .elseIf hpath htag hc hbranches⟩
    · obtain ⟨cs₁, tag, htag⟩ := exists_wordTag dash p .elseWord
      obtain ⟨cs₂, c, hc⟩ := exists_content h true false (p.advance cs₁)
      obtain ⟨cs₃, ending, hending⟩ := exists_wordTag (dashBehind true false nodes)
        (p.advance (cs₁ ++ cs₂)) .endifWord
      exact ⟨_, _, .otherwise (by simpa using hchained) htag hc hending⟩
termination_by sizeOf otherwise

end

end TextTemplate
