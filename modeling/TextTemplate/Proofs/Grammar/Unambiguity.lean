import TextTemplate.Proofs.Grammar.Assembling

/-! No list of tokens has two derivations. The tokens of a phrase determine it, also with other
tokens behind them as long as those do not prolong it. -/

namespace TextTemplate

/-- The list does not begin with a token of one of the kinds. -/
def Avoids (kinds : List TokenKind) (tokens : List Token) : Prop :=
  ∀ t ∈ tokens.head?, t.kind ∉ kinds

@[simp] theorem avoids_nil (kinds : List TokenKind) : Avoids kinds [] := by simp [Avoids]

@[simp] theorem avoids_cons {kinds : List TokenKind} {t : Token} {tokens : List Token} :
    Avoids kinds (t :: tokens) ↔ t.kind ∉ kinds := by
  simp [Avoids]

theorem Avoids.mono {kinds kinds' : List TokenKind} {tokens : List Token}
    (h : Avoids kinds tokens) (hkinds : kinds' ⊆ kinds) : Avoids kinds' tokens :=
  fun t ht hmem => h t ht (hkinds hmem)

/-- Tokens of a kind in front of a list and of another list determine each other. -/
theorem cons_inj {p : Token → Prop} {t t' : { t // p t }} {tokens tokens' : List Token}
    (h : t.1 :: tokens = t'.1 :: tokens') : t = t' ∧ tokens = tokens' :=
  ⟨Subtype.ext (List.cons.inj h).1, (List.cons.inj h).2⟩

section Phrases

variable {r r' : List Token}

theorem pairTokens_inj {q : Token → Prop} {kind : TokenKind}
    {pairs pairs' : List (Terminal kind × { t // q t })} (hr : Avoids [kind] r)
    (hr' : Avoids [kind] r') (h : pairTokens pairs ++ r = pairTokens pairs' ++ r') :
    pairs = pairs' ∧ r = r' := by
  induction pairs generalizing pairs' with
  | nil =>
    cases pairs' with
    | nil => exact ⟨rfl, h⟩
    | cons pair pairs' =>
      simp only [pairTokens, List.flatMap_nil, List.nil_append, List.flatMap_cons,
        List.cons_append] at h
      simp [h, pair.1.2] at hr
  | cons pair pairs ih =>
    cases pairs' with
    | nil =>
      simp only [pairTokens, List.flatMap_nil, List.nil_append, List.flatMap_cons,
        List.cons_append] at h
      simp [← h, pair.1.2] at hr'
    | cons pair' pairs' =>
      simp only [pairTokens, List.flatMap_cons, List.cons_append, List.nil_append] at h
      obtain ⟨hfirst, h₁⟩ := cons_inj h
      obtain ⟨hsecond, h₂⟩ := cons_inj h₁
      obtain ⟨rfl, rfl⟩ := ih h₂
      exact ⟨by rw [Prod.ext hfirst hsecond], rfl⟩

theorem PathPhrase.tokens_inj {p p' : PathPhrase} (hr : Avoids [.dot] r) (hr' : Avoids [.dot] r')
    (h : p.tokens ++ r = p'.tokens ++ r') : p = p' ∧ r = r' := by
  obtain ⟨head, steps⟩ := p
  obtain ⟨head', steps'⟩ := p'
  obtain ⟨rfl, h₁⟩ := cons_inj h
  obtain ⟨rfl, rfl⟩ := pairTokens_inj hr hr' h₁
  exact ⟨rfl, rfl⟩

theorem LiteralToken.tokens_inj {literals literals' : List LiteralToken}
    (hr : Avoids [.string, .integer] r) (hr' : Avoids [.string, .integer] r')
    (h : tokens literals ++ r = tokens literals' ++ r') : literals = literals' ∧ r = r' := by
  have hkind : ∀ t : LiteralToken, t.1.kind ∈ [TokenKind.string, .integer] := by
    intro t
    rcases t.2 with hkind | ⟨hkind, -⟩ <;> simp [hkind]
  induction literals generalizing literals' with
  | nil =>
    cases literals' with
    | nil => exact ⟨rfl, h⟩
    | cons t literals' =>
      rw [show r = t.1 :: (tokens literals' ++ r') from h] at hr
      exact absurd (hkind t) (avoids_cons.mp hr)
  | cons t literals ih =>
    cases literals' with
    | nil =>
      rw [← show t.1 :: (tokens literals ++ r) = r' from h] at hr'
      exact absurd (hkind t) (avoids_cons.mp hr')
    | cons t' literals' =>
      obtain ⟨rfl, h₁⟩ := cons_inj h
      obtain ⟨rfl, rfl⟩ := ih h₁
      exact ⟨rfl, rfl⟩

theorem FormatterPhrase.tokens_inj {p p' : Option FormatterPhrase}
    (hr : Avoids [.pipe, .string, .integer] r) (hr' : Avoids [.pipe, .string, .integer] r')
    (h : p.elim [] tokens ++ r = p'.elim [] tokens ++ r') : p = p' ∧ r = r' := by
  match p, p' with
  | none, none => exact ⟨rfl, h⟩
  | none, some p' =>
    simp only [Option.elim, tokens, List.nil_append, List.cons_append] at h
    simp [h, p'.pipe.2] at hr
  | some p, none =>
    simp only [Option.elim, tokens, List.nil_append, List.cons_append] at h
    simp [← h, p.pipe.2] at hr'
  | some ⟨pipe, name, arguments⟩, some ⟨pipe', name', arguments'⟩ =>
    obtain ⟨rfl, h₁⟩ := cons_inj h
    obtain ⟨rfl, h₂⟩ := cons_inj h₁
    obtain ⟨rfl, rfl⟩ := LiteralToken.tokens_inj (hr.mono (by simp)) (hr'.mono (by simp)) h₂
    exact ⟨rfl, rfl⟩

theorem FormatterPhrase.avoids_dot (p : Option FormatterPhrase) (hr : Avoids [.dot] r) :
    Avoids [.dot] (p.elim [] tokens ++ r) := by
  cases p with
  | none => exact hr
  | some p => simp [tokens, p.pipe.2]

theorem ValuePhrase.tokens_inj {p p' : ValuePhrase}
    (hr : Avoids [.dot, .pipe, .string, .integer] r)
    (hr' : Avoids [.dot, .pipe, .string, .integer] r')
    (h : p.tokens ++ r = p'.tokens ++ r') : p = p' ∧ r = r' := by
  obtain ⟨path, formatter⟩ := p
  obtain ⟨path', formatter'⟩ := p'
  simp only [tokens, List.append_assoc] at h
  obtain ⟨rfl, h₁⟩ := PathPhrase.tokens_inj (FormatterPhrase.avoids_dot _ (hr.mono (by simp)))
    (FormatterPhrase.avoids_dot _ (hr'.mono (by simp))) h
  obtain ⟨rfl, rfl⟩ := FormatterPhrase.tokens_inj (hr.mono (by simp)) (hr'.mono (by simp)) h₁
  exact ⟨rfl, rfl⟩

theorem NamePhrase.tokens_inj {p p' : NamePhrase} (hr : Avoids [.dot] r)
    (hr' : Avoids [.dot] r') (h : p.tokens ++ r = p'.tokens ++ r') : p = p' ∧ r = r' := by
  match p, p' with
  | quoted t, quoted t' =>
    obtain ⟨rfl, rfl⟩ := cons_inj h
    exact ⟨rfl, rfl⟩
  | quoted t, dotted first more =>
    have hkind := congrArg Token.kind (List.cons.inj h).1
    simp [t.2, first.2] at hkind
  | dotted first more, quoted t =>
    have hkind := congrArg Token.kind (List.cons.inj h).1
    simp [t.2, first.2] at hkind
  | dotted first more, dotted first' more' =>
    obtain ⟨rfl, h₁⟩ := cons_inj h
    obtain ⟨rfl, rfl⟩ := pairTokens_inj hr hr' h₁
    exact ⟨rfl, rfl⟩

theorem CallPhrase.rootTokens_inj {root root' : Option (Terminal (.keyword .withWord) × PathPhrase)}
    (hr : Avoids [.dot, .keyword .withWord] r) (hr' : Avoids [.dot, .keyword .withWord] r')
    (h : rootTokens root ++ r = rootTokens root' ++ r') : root = root' ∧ r = r' := by
  match root, root' with
  | none, none => exact ⟨rfl, h⟩
  | none, some part =>
    simp only [rootTokens, Option.elim, List.nil_append, List.cons_append] at h
    simp [h, part.1.2] at hr
  | some part, none =>
    simp only [rootTokens, Option.elim, List.nil_append, List.cons_append] at h
    simp [← h, part.1.2] at hr'
  | some (word, path), some (word', path') =>
    obtain ⟨rfl, h₁⟩ := cons_inj h
    obtain ⟨rfl, rfl⟩ := PathPhrase.tokens_inj (hr.mono (by simp)) (hr'.mono (by simp)) h₁
    exact ⟨rfl, rfl⟩

theorem CallPhrase.avoids_dot_root (root : Option (Terminal (.keyword .withWord) × PathPhrase))
    (hr : Avoids [.dot] r) : Avoids [.dot] (rootTokens root ++ r) := by
  cases root with
  | none => exact hr
  | some part => simp [rootTokens, part.1.2]

theorem ArgumentPhrase.avoids (ps : List ArgumentPhrase) {kinds : List TokenKind}
    (hr : Avoids kinds r) (hcomma : .comma ∉ kinds) : Avoids kinds (ps.flatMap tokens ++ r) := by
  cases ps with
  | nil => exact hr
  | cons p ps => simp [tokens, p.comma.2, hcomma]

theorem ArgumentPhrase.tokens_inj {ps ps' : List ArgumentPhrase} (hr : Avoids [.dot, .comma] r)
    (hr' : Avoids [.dot, .comma] r') (h : ps.flatMap tokens ++ r = ps'.flatMap tokens ++ r') :
    ps = ps' ∧ r = r' := by
  induction ps generalizing ps' with
  | nil =>
    cases ps' with
    | nil => exact ⟨rfl, h⟩
    | cons p ps' =>
      simp only [List.flatMap_nil, List.nil_append, List.flatMap_cons, tokens,
        List.cons_append] at h
      simp [h, p.comma.2] at hr
  | cons p ps ih =>
    cases ps' with
    | nil =>
      simp only [List.flatMap_nil, List.nil_append, List.flatMap_cons, tokens,
        List.cons_append] at h
      simp [← h, p.comma.2] at hr'
    | cons p' ps' =>
      obtain ⟨comma, name, equals, path⟩ := p
      obtain ⟨comma', name', equals', path'⟩ := p'
      simp only [List.flatMap_cons, tokens, List.cons_append, List.append_assoc] at h
      obtain ⟨rfl, h₁⟩ := cons_inj h
      obtain ⟨rfl, h₂⟩ := cons_inj h₁
      obtain ⟨rfl, h₃⟩ := cons_inj h₂
      obtain ⟨rfl, h₄⟩ := PathPhrase.tokens_inj (avoids ps (hr.mono (by simp)) (by simp))
        (avoids ps' (hr'.mono (by simp)) (by simp)) h₃
      obtain ⟨rfl, rfl⟩ := ih h₄
      exact ⟨rfl, rfl⟩

theorem CallPhrase.tokens_inj {p p' : CallPhrase}
    (hr : Avoids [.dot, .comma, .keyword .withWord] r)
    (hr' : Avoids [.dot, .comma, .keyword .withWord] r') (h : p.tokens ++ r = p'.tokens ++ r') :
    p = p' ∧ r = r' := by
  obtain ⟨word, name, root, arguments, distinct⟩ := p
  obtain ⟨word', name', root', arguments', distinct'⟩ := p'
  simp only [tokens, List.cons_append, List.append_assoc] at h
  have havoids : Avoids [.dot, .keyword .withWord] (arguments.flatMap ArgumentPhrase.tokens ++ r) :=
    ArgumentPhrase.avoids _ (hr.mono (by simp)) (by simp)
  have havoids' :
      Avoids [.dot, .keyword .withWord] (arguments'.flatMap ArgumentPhrase.tokens ++ r') :=
    ArgumentPhrase.avoids _ (hr'.mono (by simp)) (by simp)
  obtain ⟨rfl, h₁⟩ := cons_inj h
  obtain ⟨rfl, h₂⟩ := NamePhrase.tokens_inj (avoids_dot_root _ (havoids.mono (by simp)))
    (avoids_dot_root _ (havoids'.mono (by simp))) h₁
  obtain ⟨rfl, h₃⟩ := rootTokens_inj havoids havoids' h₂
  obtain ⟨rfl, rfl⟩ := ArgumentPhrase.tokens_inj (hr.mono (by simp)) (hr'.mono (by simp)) h₃
  exact ⟨rfl, rfl⟩

theorem IfPhrase.tokens_inj {p p' : IfPhrase} (hr : Avoids [.dot] r) (hr' : Avoids [.dot] r')
    (h : p.tokens ++ r = p'.tokens ++ r') : p = p' ∧ r = r' := by
  obtain ⟨word, condition⟩ := p
  obtain ⟨word', condition'⟩ := p'
  obtain ⟨rfl, h₁⟩ := cons_inj h
  obtain ⟨rfl, rfl⟩ := PathPhrase.tokens_inj hr hr' h₁
  exact ⟨rfl, rfl⟩

theorem ForPhrase.indexTokens_inj {index index' : Option (Terminal .comma × Terminal .identifier)}
    (hr : Avoids [.comma] r) (hr' : Avoids [.comma] r')
    (h : indexTokens index ++ r = indexTokens index' ++ r') : index = index' ∧ r = r' := by
  match index, index' with
  | none, none => exact ⟨rfl, h⟩
  | none, some part =>
    simp only [indexTokens, Option.elim, List.nil_append, List.cons_append] at h
    simp [h, part.1.2] at hr
  | some part, none =>
    simp only [indexTokens, Option.elim, List.nil_append, List.cons_append] at h
    simp [← h, part.1.2] at hr'
  | some (comma, name), some (comma', name') =>
    obtain ⟨rfl, h₁⟩ := cons_inj h
    obtain ⟨rfl, rfl⟩ := cons_inj h₁
    exact ⟨rfl, rfl⟩

theorem ForPhrase.tokens_inj {p p' : ForPhrase} (hr : Avoids [.dot] r) (hr' : Avoids [.dot] r')
    (h : p.tokens ++ r = p'.tokens ++ r') : p = p' ∧ r = r' := by
  obtain ⟨word, item, index, inWord, source⟩ := p
  obtain ⟨word', item', index', inWord', source'⟩ := p'
  simp only [tokens, List.cons_append, List.append_assoc] at h
  obtain ⟨rfl, h₁⟩ := cons_inj h
  obtain ⟨rfl, h₂⟩ := cons_inj h₁
  obtain ⟨rfl, h₃⟩ := indexTokens_inj (by simp [inWord.2]) (by simp [inWord'.2]) h₂
  obtain ⟨rfl, h₄⟩ := cons_inj h₃
  obtain ⟨rfl, rfl⟩ := PathPhrase.tokens_inj hr hr' h₄
  exact ⟨rfl, rfl⟩

theorem WithPhrase.tokens_inj {p p' : WithPhrase} (h : p.tokens ++ r = p'.tokens ++ r') :
    p = p' ∧ r = r' := by
  obtain ⟨word, source, asWord, name⟩ := p
  obtain ⟨word', source', asWord', name'⟩ := p'
  simp only [tokens, List.cons_append, List.append_assoc, List.nil_append] at h
  obtain ⟨rfl, h₁⟩ := cons_inj h
  obtain ⟨rfl, h₂⟩ := PathPhrase.tokens_inj (by simp [asWord.2]) (by simp [asWord'.2]) h₁
  obtain ⟨rfl, h₃⟩ := cons_inj h₂
  obtain ⟨rfl, rfl⟩ := cons_inj h₃
  exact ⟨rfl, rfl⟩

/-- The kind of a directive's first token, where `@` counts as an identifier. -/
def DirectivePhrase.leading : DirectivePhrase → TokenKind
  | .leaf (.comment _) => .comment
  | .leaf (.value _) => .identifier
  | .leaf (.call _) => .keyword .callWord
  | .condition _ => .keyword .ifWord
  | .block (.loop _) => .keyword .forWord
  | .block (.binding _) => .keyword .withWord

theorem DirectivePhrase.exists_leading (p : DirectivePhrase) :
    ∃ t tokens, p.tokens = t :: tokens ∧
      p.leading = if t.kind = .atSign then .identifier else t.kind := by
  rcases p with (t | p | p) | p | (p | p)
  · exact ⟨t.1, [], rfl, by rw [t.2]; rfl⟩
  · refine ⟨p.path.head.1, _, rfl, ?_⟩
    rcases p.path.head.2 with hhead | hhead <;> rw [hhead] <;> rfl
  · exact ⟨p.word.1, _, rfl, by rw [p.word.2]; rfl⟩
  · exact ⟨p.word.1, _, rfl, by rw [p.word.2]; rfl⟩
  · exact ⟨p.word.1, _, rfl, by rw [p.word.2]; rfl⟩
  · exact ⟨p.word.1, _, rfl, by rw [p.word.2]; rfl⟩

theorem DirectivePhrase.tokens_inj {p p' : DirectivePhrase} {closer closer' : Terminal .closer}
    (h : p.tokens ++ closer.1 :: r = p'.tokens ++ closer'.1 :: r') :
    p = p' ∧ closer = closer' ∧ r = r' := by
  have hr : ∀ {kinds : List TokenKind}, .closer ∉ kinds → Avoids kinds (closer.1 :: r) := by
    intro kinds hkinds
    simpa [closer.2] using hkinds
  have hr' : ∀ {kinds : List TokenKind}, .closer ∉ kinds → Avoids kinds (closer'.1 :: r') := by
    intro kinds hkinds
    simpa [closer'.2] using hkinds
  have hleading : p.leading = p'.leading := by
    obtain ⟨t, tokens, htokens, ht⟩ := p.exists_leading
    obtain ⟨t', tokens', htokens', ht'⟩ := p'.exists_leading
    rw [htokens, htokens'] at h
    obtain ⟨rfl, -⟩ := List.cons.inj h
    rw [ht, ht']
  suffices hp : p = p' ∧ closer.1 :: r = closer'.1 :: r' from ⟨hp.1, cons_inj hp.2⟩
  rcases p with (t | p | p) | p | (p | p) <;> rcases p' with (t' | p' | p') | p' | (p' | p') <;>
    cases hleading
  · obtain ⟨rfl, hrest⟩ := cons_inj h
    exact ⟨rfl, hrest⟩
  · obtain ⟨rfl, hrest⟩ := ValuePhrase.tokens_inj (hr (by simp)) (hr' (by simp)) h
    exact ⟨rfl, hrest⟩
  · obtain ⟨rfl, hrest⟩ := CallPhrase.tokens_inj (hr (by simp)) (hr' (by simp)) h
    exact ⟨rfl, hrest⟩
  · obtain ⟨rfl, hrest⟩ := IfPhrase.tokens_inj (hr (by simp)) (hr' (by simp)) h
    exact ⟨rfl, hrest⟩
  · obtain ⟨rfl, hrest⟩ := ForPhrase.tokens_inj (hr (by simp)) (hr' (by simp)) h
    exact ⟨rfl, hrest⟩
  · obtain ⟨rfl, hrest⟩ := WithPhrase.tokens_inj h
    exact ⟨rfl, hrest⟩

end Phrases

/-- A list behind a content does not prolong it: it is empty or begins with a directive whose
first token is a closing word. -/
def Ends (tokens : List Token) : Prop :=
  tokens = [] ∨ ∃ opener t rest, tokens = opener :: t :: rest ∧ opener.kind = .opener ∧
    Assembly.closingWord? t.kind ≠ none

inductive Start where
  | none
  | text (t : Terminal .text)
  | directive (tag : Tag DirectivePhrase)

def Start.tokens : Start → List Token
  | none => []
  | text t => [t.1]
  | directive tag => tag.tokens DirectivePhrase.tokens

namespace Content

def start : Content → Start
  | nil => .none
  | text t _ => .text t
  | leaf tag _ => .directive ⟨tag.opener, .leaf tag.inside, tag.closer⟩
  | ifBlock head _ _ _ => .directive ⟨head.opener, .condition head.inside, head.closer⟩
  | block head _ _ _ => .directive ⟨head.opener, .block head.inside, head.closer⟩

def behindStart : Content → List Token
  | nil => []
  | text _ rest => rest.tokens
  | leaf _ rest => rest.tokens
  | ifBlock _ body branches rest => body.tokens ++ (branches.tokens ++ rest.tokens)
  | block _ body ending rest => body.tokens ++ (ending.tokens ++ rest.tokens)

theorem tokens_eq_start (c : Content) : c.tokens = c.start.tokens ++ c.behindStart := by
  cases c with
  | nil => rfl
  | text t rest => rfl
  | leaf tag rest =>
    rw [tokens]
    rfl
  | ifBlock head body branches rest =>
    rw [tokens]
    rfl
  | block head body ending rest =>
    rw [tokens]
    rfl

theorem ends_behindStart {c : Content} {r : List Token} (hr : Ends r) (h : c.start = .none) :
    Ends (c.behindStart ++ r) := by
  cases c with
  | nil => exact hr
  | text | leaf | ifBlock | block => cases h

end Content

theorem not_ends_directive (tag : Tag DirectivePhrase) (tokens : List Token) :
    ¬ Ends (tag.tokens DirectivePhrase.tokens ++ tokens) := by
  obtain ⟨t, more, htokens, hword⟩ := Assembly.exists_first_token tag.inside
  rw [Tag.tokens, htokens]
  rintro (hnil | ⟨opener, t', rest, heq, -, hclosing⟩)
  · cases hnil
  · obtain ⟨-, heq⟩ := List.cons.inj heq
    obtain ⟨rfl, -⟩ := List.cons.inj heq
    exact hclosing hword

theorem not_ends_text (t : Terminal .text) (tokens : List Token) : ¬ Ends (t.1 :: tokens) := by
  rintro (hnil | ⟨opener, t', rest, heq, hopener, -⟩)
  · cases hnil
  · obtain ⟨rfl, -⟩ := List.cons.inj heq
    rw [t.2] at hopener
    cases hopener

theorem Tag.tokens_inj {tag tag' : Tag DirectivePhrase} {r r' : List Token}
    (h : tag.tokens DirectivePhrase.tokens ++ r = tag'.tokens DirectivePhrase.tokens ++ r') :
    tag = tag' ∧ r = r' := by
  obtain ⟨opener, p, closer⟩ := tag
  obtain ⟨opener', p', closer'⟩ := tag'
  simp only [tokens, List.cons_append, List.append_assoc, List.nil_append] at h
  obtain ⟨rfl, h₁⟩ := cons_inj h
  obtain ⟨rfl, rfl, rfl⟩ := DirectivePhrase.tokens_inj h₁
  exact ⟨rfl, rfl⟩

theorem Start.tokens_inj {start start' : Start} {r r' : List Token}
    (hr : start = .none → Ends r) (hr' : start' = .none → Ends r')
    (h : start.tokens ++ r = start'.tokens ++ r') : start = start' ∧ r = r' := by
  match start, start' with
  | none, none => exact ⟨rfl, h⟩
  | none, text t =>
    rw [show r = t.1 :: r' from h] at hr
    exact absurd (hr rfl) (not_ends_text t r')
  | none, directive tag =>
    rw [show r = tag.tokens DirectivePhrase.tokens ++ r' from h] at hr
    exact absurd (hr rfl) (not_ends_directive tag r')
  | text t, none =>
    rw [← show t.1 :: r = r' from h] at hr'
    exact absurd (hr' rfl) (not_ends_text t r)
  | directive tag, none =>
    rw [← show tag.tokens DirectivePhrase.tokens ++ r = r' from h] at hr'
    exact absurd (hr' rfl) (not_ends_directive tag r)
  | text t, text t' =>
    obtain ⟨rfl, rfl⟩ := cons_inj h
    exact ⟨rfl, rfl⟩
  | text t, directive tag =>
    have hkind := congrArg Token.kind (List.cons.inj h).1
    simp [t.2, tag.opener.2] at hkind
  | directive tag, text t =>
    have hkind := congrArg Token.kind (List.cons.inj h).1
    simp [t.2, tag.opener.2] at hkind
  | directive tag, directive tag' =>
    obtain ⟨rfl, rfl⟩ := Tag.tokens_inj h
    exact ⟨rfl, rfl⟩

theorem WordTag.tokens_inj {word : Keyword} {tag tag' : WordTag word} {r r' : List Token}
    (h : tag.tokens ++ r = tag'.tokens ++ r') : tag = tag' ∧ r = r' := by
  obtain ⟨opener, t, closer⟩ := tag
  obtain ⟨opener', t', closer'⟩ := tag'
  obtain ⟨rfl, h₁⟩ := cons_inj h
  obtain ⟨rfl, h₂⟩ := cons_inj h₁
  obtain ⟨rfl, rfl⟩ := cons_inj h₂
  exact ⟨rfl, rfl⟩

theorem WordTag.ends {word : Keyword} (tag : WordTag word) (hword : word.isCloser = true)
    (r : List Token) : Ends (tag.tokens ++ r) := by
  refine .inr ⟨_, _, _, rfl, tag.opener.2, ?_⟩
  rw [tag.inside.2, Assembly.closingWord?_closer hword]
  simp

theorem ElseIfTag.tokens_inj {tag tag' : ElseIfTag} {r r' : List Token}
    (h : tag.tokens ++ r = tag'.tokens ++ r') : tag = tag' ∧ r = r' := by
  obtain ⟨opener, ⟨t, p⟩, closer⟩ := tag
  obtain ⟨opener', ⟨t', p'⟩, closer'⟩ := tag'
  simp only [tokens, Tag.tokens, List.cons_append, List.append_assoc, List.nil_append] at h
  obtain ⟨rfl, h₁⟩ := cons_inj h
  obtain ⟨rfl, h₂⟩ := cons_inj h₁
  obtain ⟨rfl, h₃⟩ := IfPhrase.tokens_inj (by simp [closer.2]) (by simp [closer'.2]) h₂
  obtain ⟨rfl, rfl⟩ := cons_inj h₃
  exact ⟨rfl, rfl⟩

theorem ElseIfTag.ends (tag : ElseIfTag) (r : List Token) : Ends (tag.tokens ++ r) := by
  refine .inr ⟨_, _, _, rfl, tag.opener.2, ?_⟩
  rw [tag.inside.1.2]
  simp [Assembly.closingWord?, Keyword.isCloser]

theorem IfRest.ends (branches : IfRest) (r : List Token) : Ends (branches.tokens ++ r) := by
  cases branches with
  | ended ending => exact ending.ends rfl r
  | elseIf tag body rest =>
    rw [tokens, List.append_assoc]
    exact tag.ends _
  | otherwise tag body ending =>
    rw [tokens, List.append_assoc]
    exact tag.ends rfl _

/-- The kinds of the second and the third token. -/
def IfRest.words : IfRest → TokenKind × TokenKind
  | .ended _ => (.keyword .endifWord, .closer)
  | .elseIf .. => (.keyword .elseWord, .keyword .ifWord)
  | .otherwise .. => (.keyword .elseWord, .closer)

theorem IfRest.exists_words (branches : IfRest) (r : List Token) :
    ∃ first second third rest, branches.tokens ++ r = first :: second :: third :: rest ∧
      branches.words = (second.kind, third.kind) := by
  cases branches with
  | ended ending =>
    refine ⟨ending.opener.1, ending.inside.1, ending.closer.1, _, rfl, ?_⟩
    rw [ending.inside.2, ending.closer.2]
    rfl
  | elseIf tag body rest =>
    refine ⟨tag.opener.1, tag.inside.1.1, tag.inside.2.word.1, _, rfl, ?_⟩
    rw [tag.inside.1.2, tag.inside.2.word.2]
    rfl
  | otherwise tag body ending =>
    refine ⟨tag.opener.1, tag.inside.1, tag.closer.1, _, rfl, ?_⟩
    rw [tag.inside.2, tag.closer.2]
    rfl

/-- The first closing word of the rest of an if-block tells what it is, and behind `else` the
token that follows. -/
theorem IfRest.words_eq {branches branches' : IfRest} {r r' : List Token}
    (h : branches.tokens ++ r = branches'.tokens ++ r') : branches.words = branches'.words := by
  obtain ⟨first, second, third, rest, htokens, hwords⟩ := branches.exists_words r
  obtain ⟨first', second', third', rest', htokens', hwords'⟩ := branches'.exists_words r'
  rw [htokens, htokens'] at h
  obtain ⟨rfl, rfl, rfl, -⟩ :
      first = first' ∧ second = second' ∧ third = third' ∧ rest = rest' := by
    simpa using h
  rw [hwords, hwords']

mutual

theorem Content.tokens_inj {c c' : Content} {r r' : List Token} (hr : Ends r) (hr' : Ends r')
    (h : c.tokens ++ r = c'.tokens ++ r') : c = c' ∧ r = r' := by
  -- The first directive tells the constructor; then the parts agree one behind the other.
  rw [Content.tokens_eq_start, Content.tokens_eq_start, List.append_assoc, List.append_assoc] at h
  obtain ⟨hstart, hrest⟩ := Start.tokens_inj (Content.ends_behindStart hr)
    (Content.ends_behindStart hr') h
  match c with
  | .nil =>
    cases c' with
    | nil => exact ⟨rfl, hrest⟩
    | text | leaf | ifBlock | block => cases hstart
  | .text t rest =>
    cases c' with
    | text t' rest' =>
      obtain ⟨rfl⟩ := hstart
      obtain ⟨rfl, rfl⟩ := Content.tokens_inj hr hr' hrest
      exact ⟨rfl, rfl⟩
    | nil | leaf | ifBlock | block => cases hstart
  | .leaf ⟨opener, p, closer⟩ rest =>
    cases c' with
    | leaf tag' rest' =>
      obtain ⟨opener', p', closer'⟩ := tag'
      obtain ⟨rfl⟩ := hstart
      obtain ⟨rfl, rfl⟩ := Content.tokens_inj hr hr' hrest
      exact ⟨rfl, rfl⟩
    | nil | text | ifBlock | block => cases hstart
  | .ifBlock ⟨opener, p, closer⟩ body branches rest =>
    cases c' with
    | ifBlock head' body' branches' rest' =>
      obtain ⟨opener', p', closer'⟩ := head'
      obtain ⟨rfl⟩ := hstart
      simp only [Content.behindStart, List.append_assoc] at hrest
      obtain ⟨rfl, hbranches⟩ := Content.tokens_inj (branches.ends _) (branches'.ends _) hrest
      obtain ⟨rfl, hbehind⟩ := IfRest.tokens_inj hbranches
      obtain ⟨rfl, rfl⟩ := Content.tokens_inj hr hr' hbehind
      exact ⟨rfl, rfl⟩
    | nil | text | leaf | block => cases hstart
  | .block ⟨opener, p, closer⟩ body ending rest =>
    cases c' with
    | block head' body' ending' rest' =>
      obtain ⟨opener', p', closer'⟩ := head'
      obtain ⟨rfl⟩ := hstart
      simp only [Content.behindStart, List.append_assoc] at hrest
      have hends : ∀ (ending : WordTag p.kind.closer) (r : List Token), Ends (ending.tokens ++ r) :=
        fun ending => ending.ends (Assembly.isCloser_closer _)
      obtain ⟨rfl, hending⟩ := Content.tokens_inj (hends ending _) (hends ending' _) hrest
      obtain ⟨rfl, hbehind⟩ := WordTag.tokens_inj hending
      obtain ⟨rfl, rfl⟩ := Content.tokens_inj hr hr' hbehind
      exact ⟨rfl, rfl⟩
    | nil | text | leaf | ifBlock => cases hstart

theorem IfRest.tokens_inj {branches branches' : IfRest} {r r' : List Token}
    (h : branches.tokens ++ r = branches'.tokens ++ r') : branches = branches' ∧ r = r' := by
  have hwords := IfRest.words_eq h
  match branches with
  | .ended ending =>
    cases branches' with
    | ended ending' =>
      obtain ⟨rfl, rfl⟩ := WordTag.tokens_inj h
      exact ⟨rfl, rfl⟩
    | elseIf | otherwise => cases hwords
  | .elseIf tag body rest =>
    cases branches' with
    | elseIf tag' body' rest' =>
      simp only [IfRest.tokens, List.append_assoc] at h
      obtain ⟨rfl, hbody⟩ := ElseIfTag.tokens_inj h
      obtain ⟨rfl, hrest⟩ := Content.tokens_inj (rest.ends _) (rest'.ends _) hbody
      obtain ⟨rfl, rfl⟩ := IfRest.tokens_inj hrest
      exact ⟨rfl, rfl⟩
    | ended | otherwise => cases hwords
  | .otherwise tag body ending =>
    cases branches' with
    | otherwise tag' body' ending' =>
      simp only [IfRest.tokens, List.append_assoc] at h
      obtain ⟨rfl, hbody⟩ := WordTag.tokens_inj h
      obtain ⟨rfl, hending⟩ := Content.tokens_inj (ending.ends rfl _) (ending'.ends rfl _) hbody
      obtain ⟨rfl, rfl⟩ := WordTag.tokens_inj hending
      exact ⟨rfl, rfl⟩
    | ended | elseIf => cases hwords

end

end TextTemplate
