import TextTemplate.Proofs.Grammar.Acceptance
import TextTemplate.Proofs.Source.WellFormed
import TextTemplate.Proofs.Tile
import TextTemplate.Proofs.Trim

/-! What compiles is well-formed: the scan yields tokens whose values fit their kinds and no two
texts in a row, and a content over such tokens has well-formed nodes. -/

namespace TextTemplate

/-- The value of a token of a text. -/
def Token.Fits (t : Token) : Prop :=
  match t.kind with
  | .text => t.value ≠ "" ∧ ¬ HasDouble '{' t.value.toList
  | .comment => trim t.value = t.value ∧ ¬ HasDouble '}' t.value.toList
  | .identifier => IsName t.value
  | .integer => IsInteger t.value.toList
  | _ => True

def TextsApart (tokens : List Token) : Prop :=
  ∀ before t u behind, tokens = before ++ t :: u :: behind → ¬ (t.kind = .text ∧ u.kind = .text)

theorem textsApart_cons {t : Token} {tokens : List Token} :
    TextsApart (t :: tokens) ↔
      (∀ u ∈ tokens.head?, ¬ (t.kind = .text ∧ u.kind = .text)) ∧ TextsApart tokens := by
  constructor
  · intro h
    refine ⟨?_, ?_⟩
    · intro u hu
      obtain ⟨rest, rfl⟩ := List.head?_eq_some_iff.mp hu
      exact h [] t u rest rfl
    · rintro before t' u behind rfl
      exact h (t :: before) t' u behind rfl
  · rintro ⟨hhead, htail⟩ before t' u behind heq
    cases before with
    | nil =>
      obtain ⟨rfl, rfl⟩ := List.cons.inj heq
      exact hhead u rfl
    | cons t'' before =>
      obtain ⟨-, rfl⟩ := List.cons.inj heq
      exact htail before t' u behind rfl

theorem TextsApart.of_append {tokens tokens' : List Token} (h : TextsApart (tokens ++ tokens')) :
    TextsApart tokens ∧ TextsApart tokens' := by
  refine ⟨?_, ?_⟩
  · rintro before t u behind rfl
    exact h before t u (behind ++ tokens') (by simp)
  · rintro before t u behind rfl
    exact h (tokens ++ before) t u behind (by simp)

theorem Reading.fits {zone zone' : Zone} {c c' : Cursor} {t : Tile}
    (h : Reading zone c t zone' c') : t.token.Fits := by
  have howns := h.owns
  cases h.move with
  | text hkind _ hspan hdouble =>
    simp only [Token.Owns, hkind] at howns
    simp only [Token.Fits, hkind]
    rw [← howns]
    refine ⟨?_, hdouble⟩
    rintro hempty
    rw [hempty] at howns
    exact hspan (by simpa using howns)
  | opener hkind => simp [Token.Fits, hkind]
  | closer _ hkind => simp [Token.Fits, hkind]
  | comment hkind hdouble =>
    simp only [Token.Owns, hkind] at howns
    obtain ⟨body, hspan, hvalue⟩ := howns
    simp only [Token.Fits, hkind, hvalue]
    refine ⟨trim_trim _, ?_⟩
    intro hclosed
    have hbody := hclosed.mono (trim_isInfix _)
    rw [String.toList_ofList] at hbody
    rw [hspan] at hdouble
    exact hdouble (hbody.mono (List.suffix_cons '#' body).isInfix)
  | inner _ hkind _ _ _ hlongest =>
    unfold Token.Fits
    split
    · rename_i htext
      rw [htext] at hkind
      cases hkind
    · rename_i hcomment
      rw [hcomment] at hkind
      cases hkind
    · rename_i hidentifier
      simp only [hidentifier, TokenKind.LongestIn] at hlongest
      simp only [Token.Owns, hidentifier] at howns
      rw [howns, String.ofList_toList] at hlongest
      exact ⟨hlongest.1.shaped, hlongest.2⟩
    · rename_i hinteger
      simp only [hinteger, TokenKind.LongestIn] at hlongest
      simp only [Token.Owns, hinteger] at howns
      rw [howns] at hlongest
      exact hlongest.shaped
    · trivial

theorem fits_of_mem_scanFrom {zone : Zone} {c : Cursor} :
    ∀ t ∈ (scanFrom zone c).tokens, t.Fits := by
  fun_induction scanFrom zone c with
  | case1 zone c t hfinished =>
    obtain ⟨-, -, rfl⟩ := scanStep_eq_finished hfinished
    simp [Token.Fits, Token.endAt]
  | case2 => simp
  | case3 zone c t zone' c' htoken ih =>
    obtain ⟨tile, rfl, hreading⟩ := exists_reading_of_scanStep htoken
    exact List.forall_mem_cons.mpr ⟨hreading.fits, ih⟩

theorem kind_ne_text_of_scanFrom {c : Cursor} (h : c.rest = [] ∨ ['{', '{'] <+: c.rest) :
    ∀ t ∈ (scanFrom .text c).tokens.head?, t.kind ≠ .text := by
  intro t ht
  cases hstep : scanStep .text c with
  | finished t' =>
    obtain ⟨-, -, rfl⟩ := scanStep_eq_finished hstep
    rw [scanFrom_of_finished hstep] at ht
    obtain rfl : Token.endAt c.position = t := by simpa using ht
    simp [Token.endAt]
  | failed e =>
    have hfailed : (scanFrom .text c).tokens = [] := by
      rw [scanFrom]
      split <;> simp_all
    simp [hfailed] at ht
  | token t' zone' c' =>
    rw [scanFrom_of_token hstep] at ht
    obtain rfl : t' = t := by simpa [Scanned.cons] using ht
    obtain ⟨tile, rfl, hreading⟩ := exists_reading_of_scanStep hstep
    have hrest := hreading.rest_eq
    intro hkind
    cases hreading.move with
    | text _ hgap hspan _ hopener =>
      rw [hrest, Tile.chars, hgap, List.nil_append] at h
      exact h.elim (fun hnil => hspan (List.append_eq_nil_iff.mp hnil).1) hopener
    | opener hopener => simp [hkind] at hopener
    | inner hzone => simp at hzone
    | closer hzone => simp at hzone

theorem textsApart_scanFrom {zone : Zone} {c : Cursor} : TextsApart (scanFrom zone c).tokens := by
  fun_induction scanFrom zone c with
  | case1 =>
    refine textsApart_cons.mpr ⟨by simp, ?_⟩
    rintro before t u behind heq
    simp at heq
  | case2 =>
    rintro before t u behind heq
    simp at heq
  | case3 zone c t zone' c' htoken ih =>
    refine textsApart_cons.mpr ⟨?_, ih⟩
    rintro u hu ⟨htext, hutext⟩
    obtain ⟨tile, rfl, hreading⟩ := exists_reading_of_scanStep htoken
    cases hreading.move with
    | text _ _ _ _ _ hbehind => exact kind_ne_text_of_scanFrom hbehind u hu hutext
    | opener hkind => simp [htext] at hkind
    | comment hkind => simp [htext] at hkind
    | inner _ hkind => simp [htext, TokenKind.isInner] at hkind
    | closer _ hkind => simp [htext] at hkind

section Phrases

theorem isName_of_fits {t : Terminal .identifier} (h : t.1.Fits) : IsName t.1.value := by
  simpa [Token.Fits, t.2] using h

theorem isSegment_of_fits {t : Segment} (h : t.1.Fits) : IsSegment t.1.value := by
  rcases t.2 with hkind | hkind
  · exact .inl (by simpa [Token.Fits, hkind] using h)
  · exact .inr (by simpa [Token.Fits, hkind] using h)

theorem PathPhrase.wellFormed {p : PathPhrase} (h : ∀ t ∈ p.tokens, t.Fits) :
    p.path.WellFormed := by
  obtain ⟨hhead, hsteps⟩ := List.forall_mem_cons.mp h
  have hsegments : ∀ segment ∈ p.steps.map (·.2.1.value), IsSegment segment := by
    intro segment hsegment
    obtain ⟨step, hstep, rfl⟩ := List.mem_map.mp hsegment
    refine isSegment_of_fits (hsteps _ ?_)
    exact List.mem_flatMap.mpr ⟨step, hstep, by simp⟩
  rcases p.head.2 with hkind | hkind
  · simpa [Path.WellFormed, path, hkind] using hsegments
  · have hname : IsName p.head.1.value := by simpa [Token.Fits, hkind] using hhead
    simp only [Path.WellFormed, path, hkind]
    exact ⟨_, _, rfl, hname, hsegments⟩

theorem LiteralToken.wellFormed (t : LiteralToken) : t.literal.WellFormed := by
  rcases t.2 with hkind | ⟨hkind, hinteger, hlength⟩
  · simp [literal, hkind, Literal.WellFormed]
  · have hdigits := length_toDigits_ofDigitChars_le hinteger
    simp only [literal, hkind, Literal.WellFormed]
    exact ⟨Int.natCast_nonneg _, Nat.le_trans hdigits hlength⟩

theorem FormatterPhrase.wellFormed {p : FormatterPhrase} (h : ∀ t ∈ p.tokens, t.Fits) :
    p.formatter.WellFormed := by
  refine ⟨isName_of_fits (h _ (by simp [tokens])), ?_⟩
  intro literal hliteral
  obtain ⟨t, -, rfl⟩ := List.mem_map.mp hliteral
  exact t.wellFormed

theorem ArgumentPhrase.wellFormed {p : ArgumentPhrase} (h : ∀ t ∈ p.tokens, t.Fits) :
    IsName p.argument.1 ∧ p.argument.2.WellFormed := by
  refine ⟨isName_of_fits (h _ (by simp [tokens])), PathPhrase.wellFormed ?_⟩
  intro t ht
  exact h t (by simp [tokens, ht])

theorem LeafPhrase.wellFormed {p : LeafPhrase} (position : Position) (h : ∀ t ∈ p.tokens, t.Fits) :
    (p.node position).WellFormed := by
  match p with
  | comment t =>
    have ht := h t.1 (by simp [tokens])
    simp only [Token.Fits, t.2] at ht
    simpa only [node, Node.WellFormed] using ht
  | value ⟨path, formatter⟩ =>
    simp only [tokens, ValuePhrase.tokens, List.forall_mem_append] at h
    simp only [node, Node.WellFormed]
    refine ⟨PathPhrase.wellFormed h.1, ?_⟩
    cases formatter with
    | none => simp
    | some q => simpa using FormatterPhrase.wellFormed h.2
  | call ⟨word, name, root, arguments, distinct⟩ =>
    simp only [tokens, CallPhrase.tokens, List.forall_mem_cons, List.forall_mem_append] at h
    obtain ⟨-, -, hroot, harguments⟩ := h
    simp only [node, Node.WellFormed]
    refine ⟨?_, ?_, ?_⟩
    · cases root with
      | none => simp
      | some part =>
        simp only [CallPhrase.rootTokens, Option.elim, List.forall_mem_cons] at hroot
        simpa using PathPhrase.wellFormed hroot.2
    · intro argument hargument
      obtain ⟨p, hp, rfl⟩ := List.mem_map.mp hargument
      refine ArgumentPhrase.wellFormed fun t ht => harguments t ?_
      exact List.mem_flatMap.mpr ⟨p, hp, ht⟩
    · rw [List.map_map]
      exact distinct

theorem BlockPhrase.wellFormed {p : BlockPhrase} (position : Position) {body : List Node}
    (h : ∀ t ∈ p.tokens, t.Fits) (hbody : Node.ListWellFormed body) :
    (p.node position body).WellFormed := by
  match p with
  | loop ⟨word, item, index, inWord, source⟩ =>
    simp only [tokens, ForPhrase.tokens, List.forall_mem_cons, List.forall_mem_append] at h
    obtain ⟨-, hitem, hindex, -, hsource⟩ := h
    simp only [node, Node.WellFormed]
    refine ⟨isName_of_fits hitem, ?_, PathPhrase.wellFormed hsource, hbody⟩
    cases index with
    | none => simp
    | some part => simpa using isName_of_fits (hindex part.2.1 (by simp [ForPhrase.indexTokens]))
  | binding ⟨word, source, asWord, name⟩ =>
    simp only [tokens, WithPhrase.tokens, List.forall_mem_cons, List.forall_mem_append] at h
    obtain ⟨-, hsource, -, hname, -⟩ := h
    simp only [node, Node.WellFormed]
    exact ⟨isName_of_fits hname, PathPhrase.wellFormed hsource, hbody⟩

end Phrases

theorem strippedText_isInfix (text : String) (before behind : Bool) :
    (strippedText text before behind).toList <:+: text.toList := by
  have hstart : (if before then trimStart text else text).toList <:+: text.toList := by
    cases before with
    | false => exact List.infix_rfl
    | true => exact (trimStart_isSuffix text).isInfix
  cases behind with
  | false => exact hstart
  | true => exact (trimEnd_isPrefix _).isInfix.trans hstart

theorem textNodes_cases {t : Token} (before behind : Bool) (hkind : t.kind = .text)
    (h : t.Fits) :
    textNodes t before behind = [] ∨
      ∃ n : Node, textNodes t before behind = [n] ∧ n.isText = true ∧ n.WellFormed ∧
        n.nesting = 0 := by
  simp only [Token.Fits, hkind] at h
  by_cases hempty : strippedText t.value before behind = ""
  · exact .inl (by simp [textNodes, hempty])
  · refine .inr ⟨.text t.position (strippedText t.value before behind), by simp [textNodes, hempty],
      rfl, ?_, by simp [Node.nesting]⟩
    simp only [Node.WellFormed]
    exact ⟨hempty, fun hdouble => h.2 (hdouble.mono (strippedText_isInfix _ _ _))⟩

theorem LeafPhrase.isText_node (p : LeafPhrase) (position : Position) :
    (p.node position).isText = false := by
  cases p <;> rfl

theorem BlockPhrase.isText_node (p : BlockPhrase) (position : Position) (body : List Node) :
    (p.node position body).isText = false := by
  cases p <;> rfl

theorem Content.exists_text_of_beginsWithText {c : Content} {before behind : Bool}
    (h : Node.beginsWithText (c.nodes before behind) = true) :
    ∃ (t : Terminal .text) (rest : Content), c = .text t rest := by
  cases c with
  | nil => simp [nodes, Node.beginsWithText] at h
  | text t rest => exact ⟨t, rest, rfl⟩
  | leaf tag rest => simp [nodes, Node.beginsWithText, LeafPhrase.isText_node] at h
  | ifBlock head body branches rest => simp [nodes, Node.beginsWithText, Node.isText] at h
  | block head body ending rest => simp [nodes, Node.beginsWithText, BlockPhrase.isText_node] at h

theorem fits_of_tag {α : Type} {inner : α → List Token} {tag : Tag α} {more : List Token}
    (h : ∀ t ∈ tag.tokens inner ++ more, t.Fits) :
    (∀ t ∈ inner tag.inside, t.Fits) ∧ ∀ t ∈ more, t.Fits := by
  simp only [Tag.tokens, List.cons_append, List.append_assoc, List.forall_mem_cons,
    List.forall_mem_append] at h
  exact ⟨h.2.1, h.2.2.2.2⟩

mutual

theorem Content.wellFormed {c : Content} (before behind : Bool) (hfits : ∀ t ∈ c.tokens, t.Fits)
    (hapart : TextsApart c.tokens) : Node.ListWellFormed (c.nodes before behind) := by
  match c with
  | .nil => simp [Content.nodes, Node.ListWellFormed]
  | .text t rest =>
    rw [Content.tokens] at hfits hapart
    obtain ⟨ht, hrest⟩ := List.forall_mem_cons.mp hfits
    obtain ⟨hhead, hapart'⟩ := textsApart_cons.mp hapart
    have hnodes := Content.wellFormed false behind hrest hapart'
    rw [Content.nodes]
    obtain hnil | ⟨n, hn, -, hwell, -⟩ :=
      textNodes_cases before (opensTrimming behind rest.tokens) t.2 ht
    · rwa [hnil]
    · rw [hn, List.singleton_append, Node.ListWellFormed]
      refine ⟨hwell, ?_, hnodes⟩
      -- Only a text in front yields a text in front, and there the tokens keep texts apart.
      rintro ⟨-, hbegins⟩
      obtain ⟨t', rest', rfl⟩ := Content.exists_text_of_beginsWithText hbegins
      exact hhead t'.1 (by rw [Content.tokens]; rfl) ⟨t.2, t'.2⟩
  | .leaf tag rest =>
    rw [Content.tokens] at hfits hapart
    obtain ⟨hphrase, hrest⟩ := fits_of_tag hfits
    rw [Content.nodes, Node.ListWellFormed]
    refine ⟨LeafPhrase.wellFormed _ hphrase, ?_, Content.wellFormed _ _ hrest hapart.of_append.2⟩
    simp [LeafPhrase.isText_node]
  | .ifBlock head body branches rest =>
    rw [Content.tokens] at hfits hapart
    obtain ⟨hphrase, hrest⟩ := fits_of_tag hfits
    simp only [List.forall_mem_append] at hrest
    obtain ⟨hbody, hbranches, hrest⟩ := hrest
    obtain ⟨hapartBody, hapart⟩ := hapart.of_append.2.of_append
    obtain ⟨hapartBranches, hapartRest⟩ := hapart.of_append
    rw [Content.nodes, Node.ListWellFormed]
    refine ⟨?_, by simp [Node.isText], Content.wellFormed _ _ hrest hapartRest⟩
    rw [Node.WellFormed]
    refine ⟨PathPhrase.wellFormed fun t ht => hphrase t ?_, Content.wellFormed _ _ hbody hapartBody,
      IfRest.wellFormed hbranches hapartBranches⟩
    exact List.mem_cons_of_mem _ ht
  | .block head body ending rest =>
    rw [Content.tokens] at hfits hapart
    obtain ⟨hphrase, hrest⟩ := fits_of_tag hfits
    simp only [List.forall_mem_append] at hrest
    obtain ⟨hbody, -, hrest⟩ := hrest
    obtain ⟨hapartBody, hapart⟩ := hapart.of_append.2.of_append
    rw [Content.nodes, Node.ListWellFormed]
    refine ⟨?_, ?_, Content.wellFormed _ _ hrest hapart.of_append.2⟩
    · exact BlockPhrase.wellFormed _ hphrase (Content.wellFormed _ _ hbody hapartBody)
    · simp [BlockPhrase.isText_node]

theorem IfRest.wellFormed {branches : IfRest} (hfits : ∀ t ∈ branches.tokens, t.Fits)
    (hapart : TextsApart branches.tokens) : Node.OptionWellFormed branches.otherwiseNodes := by
  match branches with
  | .ended ending => simp [IfRest.otherwiseNodes, Node.OptionWellFormed]
  | .elseIf tag body rest =>
    rw [IfRest.tokens] at hfits hapart
    obtain ⟨hphrase, hrest⟩ := fits_of_tag hfits
    simp only [List.forall_mem_append] at hrest
    obtain ⟨hapartBody, hapartRest⟩ := hapart.of_append.2.of_append
    rw [IfRest.otherwiseNodes, Node.OptionWellFormed, Node.ListWellFormed, Node.WellFormed]
    refine ⟨⟨PathPhrase.wellFormed fun t ht => hphrase t ?_,
      Content.wellFormed _ _ hrest.1 hapartBody, IfRest.wellFormed hrest.2 hapartRest⟩,
      by simp [Node.isText], by simp [Node.ListWellFormed]⟩
    exact List.mem_cons_of_mem _ (List.mem_cons_of_mem _ ht)
  | .otherwise tag body ending =>
    rw [IfRest.tokens] at hfits hapart
    obtain ⟨-, hrest⟩ := fits_of_tag hfits
    simp only [List.forall_mem_append] at hrest
    rw [IfRest.otherwiseNodes, Node.OptionWellFormed]
    exact Content.wellFormed _ _ hrest.1 hapart.of_append.2.of_append.1

end

mutual

theorem Content.nesting_le (c : Content) (before behind : Bool) :
    Node.listNesting (c.nodes before behind) ≤ c.mostOpen := by
  match c with
  | .nil => simp [Content.nodes, Node.listNesting]
  | .text t rest =>
    have hrest := Content.nesting_le rest false behind
    rw [Content.nodes, Content.mostOpen, textNodes]
    split
    · exact hrest
    · simpa [Node.listNesting, Node.nesting] using hrest
  | .leaf tag rest =>
    have hrest := Content.nesting_le rest tag.closer.1.trims behind
    have hleaf : (tag.inside.node tag.opener.1.position).nesting = 0 := by
      cases tag.inside <;> simp [LeafPhrase.node, Node.nesting]
    rw [Content.nodes, Content.mostOpen, Node.listNesting, hleaf]
    omega
  | .ifBlock head body branches rest =>
    have hbody := Content.nesting_le body head.closer.1.trims branches.trimsBefore
    have hbranches := IfRest.nesting_le branches
    have hrest := Content.nesting_le rest branches.trimsBehind behind
    rw [Content.nodes, Content.mostOpen, Node.listNesting, Node.nesting]
    omega
  | .block head body ending rest =>
    have hbody := Content.nesting_le body head.closer.1.trims ending.opener.1.trims
    have hrest := Content.nesting_le rest ending.closer.1.trims behind
    have hblock : ∀ nodes, (head.inside.node head.opener.1.position nodes).nesting =
        Node.listNesting nodes + 1 := by
      intro nodes
      cases head.inside <;> simp [BlockPhrase.node, Node.nesting]
    rw [Content.nodes, Content.mostOpen, Node.listNesting, hblock]
    omega

theorem IfRest.nesting_le (branches : IfRest) :
    Node.otherwiseNesting branches.otherwiseNodes ≤ branches.mostOpen := by
  match branches with
  | .ended ending => simp [IfRest.otherwiseNodes, Node.otherwiseNesting]
  | .elseIf tag body rest =>
    have hbody := Content.nesting_le body tag.closer.1.trims rest.trimsBefore
    have hrest := IfRest.nesting_le rest
    rw [IfRest.otherwiseNodes, IfRest.mostOpen, Node.otherwiseNesting]
    omega
  | .otherwise tag body ending =>
    have hbody := Content.nesting_le body tag.closer.1.trims ending.opener.1.trims
    rw [IfRest.otherwiseNodes, IfRest.mostOpen, Node.otherwiseNesting_some]
    split <;> omega

end

theorem TokenStream.tokens_ofTokens (failure : Option LexError) (last : Position)
    (tokens : List Token) : (ofTokens failure last tokens).tokens = tokensRead tokens := by
  induction tokens generalizing last with
  | nil => cases failure <;> rfl
  | cons t tokens ih =>
    by_cases hend : t.kind = .endOfInput
    · simp [ofTokens, tokensRead, hend, TokenStream.tokens]
    · rw [ofTokens, if_neg hend, TokenStream.tokens, ih, tokensRead, tokensRead,
        List.takeWhile_cons_of_pos (by simpa using hend)]

theorem TokenStream.decimal_ofText (source : String) : (ofText source).Decimal := by
  intro t ht hkind n hread
  have htokens : (ofText source).tokens = tokensRead (scan source).tokens :=
    tokens_ofTokens _ _ _
  rw [htokens] at ht
  have hinteger : t.Fits := fits_of_mem_scanFrom t (List.takeWhile_subset _ ht)
  simp only [Token.Fits, hkind] at hinteger
  exact isDecimal_of_readInteger hinteger hread

namespace Template

/-- Compiling succeeds on the texts whose tokens are those of a content, and yields its nodes. -/
theorem compile_eq_ok_iff {source name : String} {limit : Int} {t : Template} :
    compile source name limit = .ok t ↔
      ∃ (c : Content) (position : Position),
        TokenStream.ofText source = (TokenStream.ended position).prepend c.tokens ∧
        c.mostOpen ≤ limit.toNat ∧ t = ⟨name, c.nodes false false⟩ := by
  have hdecimal := TokenStream.decimal_ofText source
  rw [compile, Attempt.bind_eq_ok]
  constructor
  · rintro ⟨nodes, hrun, ht⟩
    obtain ⟨c, position, hstream, hdepth, rfl⟩ := (Assembly.run_start_eq_ok_iff hdecimal).mp hrun
    exact ⟨c, position, hstream, hdepth, (Attempt.pure_eq_ok.mp ht).symm⟩
  · rintro ⟨c, position, hstream, hdepth, rfl⟩
    exact ⟨_, (Assembly.run_start_eq_ok_iff hdecimal).mpr ⟨c, position, hstream, hdepth, rfl⟩, rfl⟩

/-- A template that compiles is well-formed and nested no deeper than the limit allows. -/
theorem wellFormed_of_compile {source name : String} {limit : Int} {t : Template}
    (h : compile source name limit = .ok t) :
    Node.ListWellFormed t.nodes ∧ Node.listNesting t.nodes ≤ limit.toNat := by
  obtain ⟨c, position, hstream, hdepth, rfl⟩ := compile_eq_ok_iff.mp h
  have htokens : tokensRead (scan source).tokens = c.tokens := by
    have hread : (TokenStream.ofText source).tokens = tokensRead (scan source).tokens :=
      TokenStream.tokens_ofTokens _ _ _
    rw [← hread, hstream]
    simp [TokenStream.tokens_prepend, TokenStream.tokens]
  have hfits : ∀ t ∈ tokensRead (scan source).tokens, t.Fits :=
    fun t ht => fits_of_mem_scanFrom t (List.takeWhile_subset _ ht)
  have hapart : TextsApart (tokensRead (scan source).tokens) := by
    obtain ⟨rest, hrest⟩ := List.takeWhile_prefix (l := (scan source).tokens) (·.kind ≠ .endOfInput)
    have hscanned : TextsApart (scan source).tokens := textsApart_scanFrom
    rw [← hrest] at hscanned
    exact hscanned.of_append.1
  rw [htokens] at hfits hapart
  exact ⟨Content.wellFormed false false hfits hapart,
    Nat.le_trans (Content.nesting_le c false false) hdepth⟩

end Template

end TextTemplate
