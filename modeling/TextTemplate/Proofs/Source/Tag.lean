import TextTemplate.Proofs.Grammar.Content
import TextTemplate.Proofs.Source.Phrasing
import TextTemplate.Proofs.Trim

/-! Characters for texts, and for whole directives between their delimiters. -/

namespace TextTemplate

/-- The scan of plain text reads the characters as the tokens when `rest` follows. -/
def Scans (p : Position) (cs : List Char) (tokens : List Token) (rest : List Char) : Prop :=
  scanFrom .text ⟨p, cs ++ rest⟩ = (scanFrom .text ⟨p.advance cs, rest⟩).prepend tokens

theorem Scans.nil (p : Position) (rest : List Char) : Scans p [] [] rest := rfl

theorem Scans.append {p : Position} {cs cs' rest : List Char} {tokens tokens' : List Token}
    (h : Scans p cs tokens (cs' ++ rest)) (h' : Scans (p.advance cs) cs' tokens' rest) :
    Scans p (cs ++ cs') (tokens ++ tokens') rest := by
  rw [Scans, List.append_assoc, h, h', Position.advance_append, Scanned.prepend_append]

theorem scans_text {p : Position} {cs rest : List Char} (hne : cs ≠ [])
    (hdouble : ¬ HasDouble '{' cs) (hlast : cs.getLast? ≠ some '{' ∨ rest = [])
    (hrest : rest = [] ∨ ['{', '{'] <+: rest) :
    Scans p cs [⟨.text, String.ofList cs, p⟩] rest := by
  have hopening := not_prefix_of_not_hasDouble hne hdouble hlast
  refine scanFrom_of_token ?_
  rw [scanStep, scanText]
  split
  · rename_i hnil
    exact absurd (List.append_eq_nil_iff.mp hnil).1 hne
  · rename_i more hmore
    exact absurd ⟨_, hmore.symm⟩ hopening
  · rename_i more _ hmore
    exact absurd ⟨_, hmore.symm⟩ hopening
  · rw [splitDouble_of_not_hasDouble hdouble hlast hrest, ScanStep.spelled, behind_append]

section Tags

def openerChars (dash : Bool) : List Char := if dash then ['{', '{', '-'] else ['{', '{']

theorem braces_prefix_openerChars (dash : Bool) : ['{', '{'] <+: openerChars dash := by
  cases dash <;> simp [openerChars]

/-- Behind an opener and before a closer, the scan reads the characters as the tokens. -/
structure Fills (opener p : Position) (cs : List Char) (tokens : List Token) : Prop where
  lead : ∃ more, cs = ' ' :: more
  scans : ∀ rest, scanFrom (.opened opener) ⟨p, cs ++ '}' :: '}' :: rest⟩ =
    (scanFrom .text ⟨(p.advance cs).advance ['}', '}'], rest⟩).prepend
      (tokens ++ [⟨.closer, String.ofList ['}', '}'], p.advance cs⟩])

variable {opener p : Position}

theorem scanFrom_closer (rest : List Char) :
    scanFrom (.directive opener) ⟨p, '}' :: '}' :: rest⟩ =
      (scanFrom .text ⟨p.advance ['}', '}'], rest⟩).cons
        ⟨.closer, String.ofList ['}', '}'], p⟩ :=
  scanFrom_of_token rfl

theorem Spells.fills {cs : List Char} {tokens : List Token} (h : Spells opener p cs tokens)
    (hne : tokens ≠ []) : Fills opener p (cs ++ [' ']) tokens := by
  rcases h.lead with rfl | ⟨c, more, rfl, hc⟩
  · exact absurd rfl (h.ne_nil hne)
  · refine ⟨⟨_, rfl⟩, fun rest => ?_⟩
    have hopened : scanFrom (.opened opener) ⟨p, ' ' :: c :: more ++ ' ' :: '}' :: '}' :: rest⟩ =
        scanFrom (.directive opener) ⟨p, ' ' :: c :: more ++ ' ' :: '}' :: '}' :: rest⟩ := by
      refine scanFrom_congr ?_
      rw [scanStep, scanStep, List.cons_append, List.cons_append, skipBlank_lead hc.blank,
        List.head?_cons, if_neg (by simpa using hc.hash)]
    have hblank : ∀ q : Position, scanFrom (.directive opener) ⟨q, ' ' :: '}' :: '}' :: rest⟩ =
        scanFrom (.directive opener) ⟨q.next ' ', '}' :: '}' :: rest⟩ :=
      fun _ => scanFrom_congr rfl
    rw [List.append_assoc, List.singleton_append, hopened, h.scans, hblank, scanFrom_closer,
      Scanned.cons_eq_prepend, Scanned.prepend_append, Position.advance_append]
    rfl

/-- Comments stand between blanks, so that no dash or brace of theirs runs into the closer. -/
theorem fills_comment {text : String} (htrim : trim text = text)
    (hdouble : ¬ HasDouble '}' text.toList) :
    Fills opener p (' ' :: '#' :: ' ' :: (text.toList ++ [' ']))
      [⟨.comment, text, p.next ' '⟩] := by
  refine ⟨⟨_, rfl⟩, fun rest => ?_⟩
  have hbody : ¬ HasDouble '}' ('#' :: ' ' :: (text.toList ++ [' '])) :=
    not_hasDouble_cons (by decide) (not_hasDouble_cons (by decide)
      (not_hasDouble_concat (by decide) hdouble))
  have hlast : ('#' :: ' ' :: (text.toList ++ [' '])).getLast? = some ' ' := by
    rw [← List.cons_append, ← List.cons_append, List.getLast?_concat]
  have hlexeme : commentLexeme? (('#' :: ' ' :: (text.toList ++ [' '])) ++ '}' :: '}' :: rest) =
      some ('#' :: ' ' :: (text.toList ++ [' '])) := by
    have hbraces : ['}', '}'] <+: '}' :: '}' :: rest := ⟨rest, rfl⟩
    have hsplit := splitDouble_of_not_hasDouble hbody (.inl (by simp [hlast])) (.inr hbraces)
    rw [commentLexeme?, hsplit]
    simp only [hlast]
    rfl
  have hvalue : trim (String.ofList (' ' :: (text.toList ++ [' ']))) = text := by
    have htrimmed := trim_of_isTrimmed [' '] [' '] (trim_eq_self_iff.mp htrim) rfl rfl
    rwa [String.ofList_toList] at htrimmed
  have hcomment : scanFrom (.opened opener)
        ⟨p, ' ' :: '#' :: ' ' :: (text.toList ++ [' ']) ++ '}' :: '}' :: rest⟩ =
      (scanFrom (.directive opener) ⟨p.advance (' ' :: '#' :: ' ' :: (text.toList ++ [' '])),
        '}' :: '}' :: rest⟩).cons ⟨.comment, text, p.next ' '⟩ := by
    refine scanFrom_of_token ?_
    rw [scanStep, List.cons_append, List.cons_append, skipBlank_lead rfl, List.head?_cons,
      if_pos rfl, scanComment, ← List.cons_append, hlexeme]
    simp only [List.drop_succ_cons, List.drop_zero, hvalue, behind_append]
    rfl
  rw [hcomment, scanFrom_closer]
  rfl

theorem scanStep_opener (dash : Bool) {rest : List Char} (h : ∃ more, rest = ' ' :: more) :
    scanStep .text ⟨p, openerChars dash ++ rest⟩ =
      .token ⟨.opener, String.ofList (openerChars dash), p⟩ (.opened p)
        ⟨p.advance (openerChars dash), rest⟩ := by
  obtain ⟨more, rfl⟩ := h
  cases dash <;> rfl

/-- A tag stands on the characters. Only its opener may have a dash. -/
structure Tag.Written {α : Type} (inner : α → List Token) (dash : Bool) (p : Position)
    (cs : List Char) (tag : Tag α) : Prop where
  opens : tag.opener.1.trims = dash
  closes : tag.closer.1.trims = false
  lead : openerChars dash <+: cs
  scans : ∀ rest, Scans p cs (tag.tokens inner) rest

theorem Tag.Written.opensTrimming_append {α : Type} {inner : α → List Token} {dash : Bool}
    {p : Position} {cs : List Char} {tag : Tag α} (h : tag.Written inner dash p cs) (behind : Bool)
    (more : List Token) : opensTrimming behind (tag.tokens inner ++ more) = dash := by
  simp [Tag.tokens, opensTrimming, tag.opener.2, h.opens]

theorem exists_tag {α : Type} (inner : α → List Token) (x : α) (dash : Bool) {cs : List Char}
    (h : Fills p (p.advance (openerChars dash)) cs (inner x)) :
    ∃ (cs : List Char) (tag : Tag α), tag.inside = x ∧ tag.Written inner dash p cs := by
  let opener : Terminal .opener := ⟨⟨.opener, String.ofList (openerChars dash), p⟩, rfl⟩
  let closer : Terminal .closer :=
    ⟨⟨.closer, String.ofList ['}', '}'], (p.advance (openerChars dash)).advance cs⟩, rfl⟩
  have hopens : opener.1.trims = dash := by
    cases dash <;> simp [opener, Token.trims, openerChars]
  have hcloses : closer.1.trims = false := by
    simp [closer, Token.trims]
  refine ⟨openerChars dash ++ (cs ++ ['}', '}']), ⟨opener, x, closer⟩, rfl, hopens, hcloses,
    ⟨_, rfl⟩, fun rest => ?_⟩
  have hlead : ∃ more, cs ++ '}' :: '}' :: rest = ' ' :: more := by
    obtain ⟨more, rfl⟩ := h.lead
    exact ⟨_, rfl⟩
  have hopener := scanFrom_of_token (scanStep_opener (p := p) dash hlead)
  rw [Scans, List.append_assoc, List.append_assoc, List.cons_append, List.singleton_append, hopener,
    h.scans, Position.advance_append, Position.advance_append]
  rfl

end Tags

section Phrases

variable (dash : Bool) (p : Position)

theorem exists_wordTag (word : Keyword) :
    ∃ (cs : List Char) (tag : WordTag word), tag.Written (fun t => [t.1]) dash p cs := by
  obtain ⟨_, t, ht⟩ := exists_keyword p (p.advance (openerChars dash)) word
  obtain ⟨cs, tag, -, htag⟩ :=
    exists_tag (fun t : Terminal (.keyword word) => [t.1]) t dash (ht.fills (by simp))
  exact ⟨cs, tag, htag⟩

theorem exists_ifTag {condition : Path} (h : condition.WellFormed) :
    ∃ (cs : List Char) (tag : Tag IfPhrase), tag.inside.condition.path = condition ∧
      tag.Written IfPhrase.tokens dash p cs := by
  obtain ⟨_, word, q, hq, hspells⟩ :=
    exists_condition p (p.advance (openerChars dash)) .ifWord h
  obtain ⟨cs, tag, hinside, htag⟩ :=
    exists_tag IfPhrase.tokens ⟨word, q⟩ dash (hspells.fills (by simp))
  exact ⟨cs, tag, by rw [hinside]; exact hq, htag⟩

theorem exists_elseIfTag {condition : Path} (h : condition.WellFormed) :
    ∃ (cs : List Char) (tag : ElseIfTag), tag.inside.2.condition.path = condition ∧
      tag.Written (fun part => part.1.1 :: part.2.tokens) dash p cs := by
  obtain ⟨cs₁, t, ht⟩ := exists_keyword p (p.advance (openerChars dash)) .elseWord
  obtain ⟨_, word, q, hq, hspells⟩ :=
    exists_condition p ((p.advance (openerChars dash)).advance cs₁) .ifWord h
  have hfills := (ht.append hspells).fills (by simp)
  obtain ⟨cs, tag, hinside, htag⟩ := exists_tag
    (fun part : Terminal (.keyword .elseWord) × IfPhrase => part.1.1 :: part.2.tokens)
    (t, ⟨word, q⟩) dash hfills
  exact ⟨cs, tag, by rw [hinside]; exact hq, htag⟩

theorem exists_commentTag {text : String} (htrim : trim text = text)
    (hdouble : ¬ HasDouble '}' text.toList) :
    ∃ (cs : List Char) (tag : Tag LeafPhrase),
      (∀ position, tag.inside.node position = .comment position text) ∧
      tag.Written LeafPhrase.tokens dash p cs := by
  obtain ⟨cs, tag, hinside, htag⟩ :=
    exists_tag LeafPhrase.tokens (.comment ⟨_, rfl⟩) dash (fills_comment htrim hdouble)
  exact ⟨cs, tag, by rw [hinside]; exact fun _ => rfl, htag⟩

theorem exists_valueTag {path : Path} {formatter : Option FormatterCall} (hpath : path.WellFormed)
    (hformatter : ∀ call ∈ formatter, call.WellFormed) :
    ∃ (cs : List Char) (tag : Tag LeafPhrase),
      (∀ position, tag.inside.node position = .value position path formatter) ∧
      tag.Written LeafPhrase.tokens dash p cs := by
  obtain ⟨_, q, hq, hf, hspells⟩ :=
    exists_value p (p.advance (openerChars dash)) hpath hformatter
  obtain ⟨cs, tag, hinside, htag⟩ :=
    exists_tag LeafPhrase.tokens (.value q) dash
      (hspells.fills (by simp [ValuePhrase.tokens, PathPhrase.tokens]))
  refine ⟨cs, tag, fun position => ?_, htag⟩
  rw [hinside, LeafPhrase.node, hq, hf]

theorem exists_callTag (name : String) {root : Option Path} {arguments : List (String × Path)}
    (hroot : ∀ path ∈ root, path.WellFormed)
    (harguments : ∀ argument ∈ arguments, IsName argument.1 ∧ argument.2.WellFormed)
    (hdistinct : (arguments.map Prod.fst).Nodup) :
    ∃ (cs : List Char) (tag : Tag LeafPhrase),
      (∀ position, tag.inside.node position = .call position name root arguments) ∧
      tag.Written LeafPhrase.tokens dash p cs := by
  obtain ⟨_, q, hname, hr, ha, hspells⟩ :=
    exists_call p (p.advance (openerChars dash)) name hroot harguments hdistinct
  obtain ⟨cs, tag, hinside, htag⟩ :=
    exists_tag LeafPhrase.tokens (.call q) dash (hspells.fills (by simp [CallPhrase.tokens]))
  refine ⟨cs, tag, fun position => ?_, htag⟩
  rw [hinside, LeafPhrase.node, hname, hr, ha]

theorem exists_forTag {item : String} {index : Option String} {source : Path}
    (hitem : IsName item) (hindex : ∀ name ∈ index, IsName name) (hsource : source.WellFormed) :
    ∃ (cs : List Char) (tag : Tag BlockPhrase),
      (∀ position body, tag.inside.node position body =
        .forBlock position item index source body) ∧
      tag.Written BlockPhrase.tokens dash p cs := by
  obtain ⟨_, q, hi, hj, hs, hspells⟩ :=
    exists_for p (p.advance (openerChars dash)) hitem hindex hsource
  obtain ⟨cs, tag, hinside, htag⟩ :=
    exists_tag BlockPhrase.tokens (.loop q) dash (hspells.fills (by simp [ForPhrase.tokens]))
  refine ⟨cs, tag, fun position body => ?_, htag⟩
  rw [hinside, BlockPhrase.node, hi, hj, hs]

theorem exists_withTag {name : String} {source : Path} (hname : IsName name)
    (hsource : source.WellFormed) :
    ∃ (cs : List Char) (tag : Tag BlockPhrase),
      (∀ position body, tag.inside.node position body = .withBlock position name source body) ∧
      tag.Written BlockPhrase.tokens dash p cs := by
  obtain ⟨_, q, hn, hs, hspells⟩ :=
    exists_with p (p.advance (openerChars dash)) hname hsource
  obtain ⟨cs, tag, hinside, htag⟩ :=
    exists_tag BlockPhrase.tokens (.binding q) dash (hspells.fills (by simp [WithPhrase.tokens]))
  refine ⟨cs, tag, fun position body => ?_, htag⟩
  rw [hinside, BlockPhrase.node, hn, hs]

end Phrases

end TextTemplate
