import TextTemplate.Proofs.Grammar.Reading

/-! Whatever the readers of directives accept are the tokens of a phrase that means what they
answer. -/

namespace TextTemplate

namespace TokenStream

def tokens : TokenStream → List Token
  | next t rest => t :: rest.tokens
  | ended _ | broken _ => []

theorem tokens_prepend (tokens : List Token) (s : TokenStream) :
    (s.prepend tokens).tokens = tokens ++ s.tokens := by
  induction tokens with
  | nil => rfl
  | cons t tokens ih => rw [prepend_cons, TokenStream.tokens, ih, List.cons_append]

/-- Of the integers in the stream, only decimal ones can be read. -/
def Decimal (s : TokenStream) : Prop :=
  ∀ t ∈ s.tokens, t.kind = .integer → ∀ n, readInteger t.value = .ok n → IsDecimal t.value

theorem decimal_next {t : Token} {s : TokenStream} :
    (next t s).Decimal ↔
      (t.kind = .integer → ∀ n, readInteger t.value = .ok n → IsDecimal t.value) ∧ s.Decimal := by
  simp [Decimal, tokens]

theorem Decimal.tail {t : Token} {s : TokenStream} (h : (next t s).Decimal) : s.Decimal :=
  (decimal_next.mp h).2

theorem Decimal.of_prepend {tokens : List Token} {s : TokenStream}
    (h : (s.prepend tokens).Decimal) : s.Decimal := by
  induction tokens with
  | nil => exact h
  | cons t tokens ih => exact ih h.tail

variable {s r : TokenStream}

theorem eq_next_of_expect {kind : TokenKind} {expected : Expected} {t : Token}
    (h : s.expect kind expected = .ok (t, r)) : t.kind = kind ∧ s = next t r := by
  cases s with
  | next t' s =>
    simp only [expect] at h
    split at h
    · simp only [Except.ok.injEq, Prod.mk.injEq] at h
      obtain ⟨rfl, rfl⟩ := h
      exact ⟨by assumption, rfl⟩
    · cases h
  | ended => simp [expect, refuse, peek] at h
  | broken => simp [expect, refuse, peek] at h

theorem eq_of_accept {kind : TokenKind} {given : Bool} (h : s.accept kind = .ok (given, r)) :
    (∃ t : Terminal kind, given = true ∧ s = next t.1 r) ∨ given = false ∧ s = r := by
  cases s with
  | next t s =>
    simp only [accept] at h
    split at h
    · rename_i hkind
      simp only [Except.ok.injEq, Prod.mk.injEq] at h
      obtain ⟨rfl, rfl⟩ := h
      exact .inl ⟨⟨t, hkind⟩, rfl, rfl⟩
    · simp only [Except.ok.injEq, Prod.mk.injEq] at h
      exact .inr ⟨h.1.symm, h.2⟩
  | ended position =>
    simp only [accept, Except.ok.injEq, Prod.mk.injEq] at h
    exact .inr ⟨h.1.symm, h.2⟩
  | broken => simp [accept] at h

theorem exists_steps_of_readSegments {segments : List String}
    (h : s.readSegments = .ok (segments, r)) :
    ∃ steps : List (Terminal .dot × Segment),
      s = r.prepend (pairTokens steps) ∧ segments = steps.map (·.2.1.value) := by
  fun_induction readSegments s generalizing segments r with
  | case1 dot t rest hdot ht ih =>
    obtain ⟨⟨more, s'⟩, hs, hr⟩ := Attempt.bind_eq_ok.mp h
    obtain ⟨rfl, rfl⟩ := Prod.mk.inj (Attempt.pure_eq_ok.mp hr)
    obtain ⟨steps, rfl, rfl⟩ := ih hs
    exact ⟨(⟨dot, hdot⟩, ⟨t, ht⟩) :: steps, rfl, rfl⟩
  | case2 => cases h
  | case3 =>
    simp only [Except.ok.injEq, Prod.mk.injEq] at h
    exact ⟨[], h.2, h.1.symm⟩
  | case4 => exact absurd h refuse_ne_ok
  | case5 | case6 =>
    simp only [Except.ok.injEq, Prod.mk.injEq] at h
    exact ⟨[], h.2, h.1.symm⟩
  | case7 => cases h

theorem exists_path_of_readPath {path : Path} (h : s.readPath = .ok (path, r)) :
    ∃ p : PathPhrase, s = r.prepend p.tokens ∧ path = p.path := by
  unfold readPath at h
  split at h
  · rename_i t rest
    split at h
    · rename_i hkind
      obtain ⟨⟨more, s'⟩, hs, hr⟩ := Attempt.bind_eq_ok.mp h
      obtain ⟨rfl, rfl⟩ := Prod.mk.inj (Attempt.pure_eq_ok.mp hr)
      obtain ⟨steps, rfl, rfl⟩ := exists_steps_of_readSegments hs
      exact ⟨⟨⟨t, .inl hkind⟩, steps⟩, rfl, by simp [PathPhrase.path, hkind]⟩
    · rename_i hkind
      obtain ⟨⟨more, s'⟩, hs, hr⟩ := Attempt.bind_eq_ok.mp h
      obtain ⟨rfl, rfl⟩ := Prod.mk.inj (Attempt.pure_eq_ok.mp hr)
      obtain ⟨steps, rfl, rfl⟩ := exists_steps_of_readSegments hs
      exact ⟨⟨⟨t, .inr hkind⟩, steps⟩, rfl, by simp [PathPhrase.path, hkind]⟩
    · cases h
    · cases h
  · exact absurd h refuse_ne_ok

theorem exists_readable_of_readLiterals {literals : List Literal}
    (h : s.readLiterals = .ok (literals, r)) :
    ∃ arguments : List ReadableToken, s = r.prepend (ReadableToken.tokens arguments) ∧
      literals = arguments.map ReadableToken.literal := by
  fun_induction readLiterals s generalizing literals r with
  | case1 t rest hkind ih =>
    obtain ⟨⟨more, s'⟩, hs, hr⟩ := Attempt.bind_eq_ok.mp h
    obtain ⟨rfl, rfl⟩ := Prod.mk.inj (Attempt.pure_eq_ok.mp hr)
    obtain ⟨arguments, rfl, rfl⟩ := ih hs
    exact ⟨⟨t, .inl hkind⟩ :: arguments, rfl, by simp [ReadableToken.literal, hkind]⟩
  | case2 t rest hkind ih =>
    cases hread : readInteger t.value with
    | error fault =>
      rw [hread] at h
      cases h
    | ok n =>
      rw [hread, Attempt.mapError_ok, Attempt.ok_bind] at h
      obtain ⟨⟨more, s'⟩, hs, hr⟩ := Attempt.bind_eq_ok.mp h
      obtain ⟨rfl, rfl⟩ := Prod.mk.inj (Attempt.pure_eq_ok.mp hr)
      obtain ⟨arguments, rfl, rfl⟩ := ih hs
      exact ⟨⟨t, .inr ⟨hkind, n, hread⟩⟩ :: arguments, rfl,
        by simp [ReadableToken.literal, hkind, hread, Except.toOption]⟩
  | case3 | case4 =>
    simp only [Except.ok.injEq, Prod.mk.injEq] at h
    exact ⟨[], h.2, h.1.symm⟩
  | case5 => cases h

theorem exists_piece_of_readFormatter {formatter : Option FormatterCall}
    (h : s.readFormatter = .ok (formatter, r)) :
    ∃ p : Option FormatterPiece, s = r.prepend (p.elim [] FormatterPiece.tokens) ∧
      formatter = p.map FormatterPiece.formatter := by
  obtain ⟨⟨given, s₁⟩, h₁, hthen⟩ := Attempt.bind_eq_ok.mp h
  obtain ⟨pipe, rfl, rfl⟩ | ⟨rfl, rfl⟩ := eq_of_accept h₁
  · obtain ⟨⟨name, s₂⟩, h₂, hthen⟩ := Attempt.bind_eq_ok.mp hthen
    obtain ⟨⟨literals, s₃⟩, h₃, hthen⟩ := Attempt.bind_eq_ok.mp hthen
    obtain ⟨rfl, rfl⟩ := Prod.mk.inj (Attempt.pure_eq_ok.mp hthen)
    obtain ⟨hname, rfl⟩ := eq_next_of_expect h₂
    obtain ⟨arguments, rfl, rfl⟩ := exists_readable_of_readLiterals h₃
    exact ⟨some ⟨pipe, ⟨name, hname⟩, arguments⟩, rfl, rfl⟩
  · obtain ⟨rfl, rfl⟩ := Prod.mk.inj (Attempt.pure_eq_ok.mp hthen)
    exact ⟨none, rfl, rfl⟩

theorem exists_leaf_of_readValue {d : Directive} (h : s.readValue = .ok (d, r)) :
    ∃ p : LeafPiece, s = r.prepend p.tokens ∧ d = p.directive := by
  obtain ⟨⟨path, s₁⟩, h₁, h⟩ := Attempt.bind_eq_ok.mp h
  obtain ⟨⟨formatter, s₂⟩, h₂, h⟩ := Attempt.bind_eq_ok.mp h
  obtain ⟨rfl, rfl⟩ := Prod.mk.inj (Attempt.pure_eq_ok.mp h)
  obtain ⟨p, rfl, rfl⟩ := exists_path_of_readPath h₁
  obtain ⟨q, rfl, rfl⟩ := exists_piece_of_readFormatter h₂
  exact ⟨.value p q, by rw [LeafPiece.tokens, prepend_append], rfl⟩

theorem exists_names_of_readNames {names : List String} (h : s.readNames = .ok (names, r)) :
    ∃ more : List (Terminal .dot × Terminal .identifier),
      s = r.prepend (pairTokens more) ∧ names = more.map (·.2.1.value) := by
  fun_induction readNames s generalizing names r with
  | case1 dot t rest hdot ht ih =>
    obtain ⟨⟨more, s'⟩, hs, hr⟩ := Attempt.bind_eq_ok.mp h
    obtain ⟨rfl, rfl⟩ := Prod.mk.inj (Attempt.pure_eq_ok.mp hr)
    obtain ⟨more, rfl, rfl⟩ := ih hs
    exact ⟨(⟨dot, hdot⟩, ⟨t, ht⟩) :: more, rfl, rfl⟩
  | case2 => cases h
  | case3 =>
    simp only [Except.ok.injEq, Prod.mk.injEq] at h
    exact ⟨[], h.2, h.1.symm⟩
  | case4 => exact absurd h refuse_ne_ok
  | case5 | case6 =>
    simp only [Except.ok.injEq, Prod.mk.injEq] at h
    exact ⟨[], h.2, h.1.symm⟩
  | case7 => cases h

theorem exists_name_of_readTemplateName {name : String}
    (h : s.readTemplateName = .ok (name, r)) :
    ∃ p : NamePhrase, s = r.prepend p.tokens ∧ name = p.name := by
  unfold readTemplateName at h
  split at h
  · rename_i t rest
    split at h
    · rename_i hkind
      simp only [Except.ok.injEq, Prod.mk.injEq] at h
      obtain ⟨rfl, rfl⟩ := h
      exact ⟨.quoted ⟨t, hkind⟩, rfl, rfl⟩
    · rename_i hkind
      obtain ⟨⟨names, s'⟩, hs, hr⟩ := Attempt.bind_eq_ok.mp h
      obtain ⟨rfl, rfl⟩ := Prod.mk.inj (Attempt.pure_eq_ok.mp hr)
      obtain ⟨more, rfl, rfl⟩ := exists_names_of_readNames hs
      exact ⟨.dotted ⟨t, hkind⟩ more, rfl, rfl⟩
    · cases h
  · exact absurd h refuse_ne_ok

theorem exists_root_of_readRoot {root : Option Path} (h : s.readRoot = .ok (root, r)) :
    ∃ p : Option (Terminal (.keyword .withWord) × PathPhrase),
      s = r.prepend (CallPhrase.rootTokens p) ∧ root = p.map (·.2.path) := by
  obtain ⟨⟨given, s₁⟩, h₁, hthen⟩ := Attempt.bind_eq_ok.mp h
  obtain ⟨word, rfl, rfl⟩ | ⟨rfl, rfl⟩ := eq_of_accept h₁
  · obtain ⟨⟨path, s₂⟩, h₂, hthen⟩ := Attempt.bind_eq_ok.mp hthen
    obtain ⟨rfl, rfl⟩ := Prod.mk.inj (Attempt.pure_eq_ok.mp hthen)
    obtain ⟨p, rfl, rfl⟩ := exists_path_of_readPath h₂
    exact ⟨some (word, p), rfl, rfl⟩
  · obtain ⟨rfl, rfl⟩ := Prod.mk.inj (Attempt.pure_eq_ok.mp hthen)
    exact ⟨none, rfl, rfl⟩

theorem exists_argument_of_readArgument {taken : List String} {argument : String × Path}
    (comma : Terminal .comma) (h : s.readArgument taken = .ok (argument, r)) :
    ∃ p : ArgumentPhrase, next comma.1 s = r.prepend p.tokens ∧ argument = p.argument ∧
      p.name.1.value ∉ taken := by
  obtain ⟨⟨name, s₁⟩, h₁, h⟩ := Attempt.bind_eq_ok.mp h
  dsimp only at h
  split at h
  · cases h
  · rename_i htaken
    obtain ⟨⟨equals, s₂⟩, h₂, h⟩ := Attempt.bind_eq_ok.mp h
    obtain ⟨⟨path, s₃⟩, h₃, h⟩ := Attempt.bind_eq_ok.mp h
    obtain ⟨rfl, rfl⟩ := Prod.mk.inj (Attempt.pure_eq_ok.mp h)
    obtain ⟨hname, rfl⟩ := eq_next_of_expect h₁
    obtain ⟨hequals, rfl⟩ := eq_next_of_expect h₂
    obtain ⟨p, rfl, rfl⟩ := exists_path_of_readPath h₃
    exact ⟨⟨comma, ⟨name, hname⟩, ⟨equals, hequals⟩, p⟩, rfl, rfl, htaken⟩

theorem exists_arguments_of_readArguments {taken : List String}
    {arguments : List (String × Path)} (h : s.readArguments taken = .ok (arguments, r)) :
    ∃ ps : List ArgumentPhrase, s = r.prepend (ps.flatMap ArgumentPhrase.tokens) ∧
      arguments = ps.map ArgumentPhrase.argument ∧ (ps.map (·.name.1.value)).Nodup ∧
      ∀ p ∈ ps, p.name.1.value ∉ taken := by
  fun_induction readArguments taken s generalizing arguments r with
  | case1 => cases h
  | case2 taken s s' hcomma =>
    obtain ⟨_, ⟨⟩, -⟩ | ⟨-, rfl⟩ := eq_of_accept hcomma
    simp only [Except.ok.injEq, Prod.mk.injEq] at h
    obtain ⟨rfl, rfl⟩ := h
    exact ⟨[], rfl, rfl, by simp, by simp⟩
  | case3 => cases h
  | case4 taken s s' hcomma argument s'' hargument ih =>
    obtain ⟨comma, -, rfl⟩ | ⟨⟨⟩, -⟩ := eq_of_accept hcomma
    obtain ⟨⟨more, s₃⟩, h₃, h⟩ := Attempt.bind_eq_ok.mp h
    obtain ⟨rfl, rfl⟩ := Prod.mk.inj (Attempt.pure_eq_ok.mp h)
    obtain ⟨p, hp, rfl, htaken⟩ := exists_argument_of_readArgument comma hargument
    obtain ⟨ps, rfl, rfl, hdistinct, hps⟩ := ih h₃
    refine ⟨p :: ps, by rw [hp, List.flatMap_cons, prepend_append], rfl, ?_, ?_⟩
    · refine List.nodup_cons.mpr ⟨?_, hdistinct⟩
      intro hmem
      obtain ⟨p', hp', heq⟩ := List.mem_map.mp hmem
      exact hps p' hp' (by simp [ArgumentPhrase.argument, heq])
    · refine List.forall_mem_cons.mpr ⟨htaken, ?_⟩
      intro p' hp' hmem
      exact hps p' hp' (List.mem_cons_of_mem _ hmem)

theorem exists_call_of_readCall {d : Directive} (word : Terminal (.keyword .callWord))
    (h : s.readCall = .ok (d, r)) :
    ∃ p : CallPhrase, next word.1 s = r.prepend p.tokens ∧ d = p.directive := by
  obtain ⟨⟨name, s₁⟩, h₁, h⟩ := Attempt.bind_eq_ok.mp h
  obtain ⟨⟨root, s₂⟩, h₂, h⟩ := Attempt.bind_eq_ok.mp h
  obtain ⟨⟨arguments, s₃⟩, h₃, h⟩ := Attempt.bind_eq_ok.mp h
  obtain ⟨rfl, rfl⟩ := Prod.mk.inj (Attempt.pure_eq_ok.mp h)
  obtain ⟨name, rfl, rfl⟩ := exists_name_of_readTemplateName h₁
  obtain ⟨root, rfl, rfl⟩ := exists_root_of_readRoot h₂
  obtain ⟨ps, rfl, rfl, hdistinct, -⟩ := exists_arguments_of_readArguments h₃
  refine ⟨⟨word, name, root, ps, hdistinct⟩, ?_, rfl⟩
  rw [CallPhrase.tokens, prepend_cons, prepend_append, prepend_append]

theorem exists_index_of_readIndex {index : Option String} (h : s.readIndex = .ok (index, r)) :
    ∃ p : Option (Terminal .comma × Terminal .identifier),
      s = r.prepend (ForPhrase.indexTokens p) ∧ index = p.map (·.2.1.value) := by
  obtain ⟨⟨given, s₁⟩, h₁, hthen⟩ := Attempt.bind_eq_ok.mp h
  obtain ⟨comma, rfl, rfl⟩ | ⟨rfl, rfl⟩ := eq_of_accept h₁
  · obtain ⟨⟨name, s₂⟩, h₂, hthen⟩ := Attempt.bind_eq_ok.mp hthen
    obtain ⟨rfl, rfl⟩ := Prod.mk.inj (Attempt.pure_eq_ok.mp hthen)
    obtain ⟨hname, rfl⟩ := eq_next_of_expect h₂
    exact ⟨some (comma, ⟨name, hname⟩), rfl, rfl⟩
  · obtain ⟨rfl, rfl⟩ := Prod.mk.inj (Attempt.pure_eq_ok.mp hthen)
    exact ⟨none, rfl, rfl⟩

theorem exists_for_of_readForHead {d : Directive} (word : Terminal (.keyword .forWord))
    (h : s.readForHead = .ok (d, r)) :
    ∃ p : ForPhrase, next word.1 s = r.prepend p.tokens ∧ d = p.directive := by
  obtain ⟨⟨item, s₁⟩, h₁, h⟩ := Attempt.bind_eq_ok.mp h
  obtain ⟨⟨index, s₂⟩, h₂, h⟩ := Attempt.bind_eq_ok.mp h
  obtain ⟨⟨inWord, s₃⟩, h₃, h⟩ := Attempt.bind_eq_ok.mp h
  obtain ⟨⟨source, s₄⟩, h₄, h⟩ := Attempt.bind_eq_ok.mp h
  obtain ⟨rfl, rfl⟩ := Prod.mk.inj (Attempt.pure_eq_ok.mp h)
  obtain ⟨hitem, rfl⟩ := eq_next_of_expect h₁
  obtain ⟨index, rfl, rfl⟩ := exists_index_of_readIndex h₂
  obtain ⟨hword, rfl⟩ := eq_next_of_expect h₃
  obtain ⟨source, rfl, rfl⟩ := exists_path_of_readPath h₄
  refine ⟨⟨word, ⟨item, hitem⟩, index, ⟨inWord, hword⟩, source⟩, ?_, rfl⟩
  rw [ForPhrase.tokens, prepend_cons, prepend_cons, prepend_append, prepend_cons]

theorem exists_with_of_readWithHead {d : Directive} (word : Terminal (.keyword .withWord))
    (h : s.readWithHead = .ok (d, r)) :
    ∃ p : WithPhrase, next word.1 s = r.prepend p.tokens ∧ d = p.directive := by
  obtain ⟨⟨source, s₁⟩, h₁, h⟩ := Attempt.bind_eq_ok.mp h
  obtain ⟨⟨asWord, s₂⟩, h₂, h⟩ := Attempt.bind_eq_ok.mp h
  obtain ⟨⟨name, s₃⟩, h₃, h⟩ := Attempt.bind_eq_ok.mp h
  obtain ⟨rfl, rfl⟩ := Prod.mk.inj (Attempt.pure_eq_ok.mp h)
  obtain ⟨source, rfl, rfl⟩ := exists_path_of_readPath h₁
  obtain ⟨hword, rfl⟩ := eq_next_of_expect h₂
  obtain ⟨hname, rfl⟩ := eq_next_of_expect h₃
  refine ⟨⟨word, source, ⟨asWord, hword⟩, ⟨name, hname⟩⟩, ?_, rfl⟩
  rw [WithPhrase.tokens, prepend_cons, prepend_append]
  rfl

theorem exists_if_of_readIfHead {d : Directive} (word : Terminal (.keyword .ifWord))
    (h : s.readIfHead = .ok (d, r)) :
    ∃ p : IfPhrase, next word.1 s = r.prepend p.tokens ∧ d = .ifHead p.condition.path := by
  obtain ⟨⟨condition, s₁⟩, h₁, h⟩ := Attempt.bind_eq_ok.mp h
  obtain ⟨rfl, rfl⟩ := Prod.mk.inj (Attempt.pure_eq_ok.mp h)
  obtain ⟨condition, rfl, rfl⟩ := exists_path_of_readPath h₁
  exact ⟨⟨word, condition⟩, rfl, rfl⟩

theorem exists_piece_of_readDirective {d : Directive} (h : s.readDirective = .ok (d, r)) :
    (∃ p : LeafPiece, s = r.prepend p.tokens ∧ d = p.directive) ∨
      ∃ p : HeadPhrase, s = r.prepend p.tokens ∧ d = p.directive := by
  unfold readDirective at h
  split at h
  · rename_i t rest
    split at h
    · rename_i hkind
      simp only [Except.ok.injEq, Prod.mk.injEq] at h
      obtain ⟨rfl, rfl⟩ := h
      exact .inl ⟨.comment ⟨t, hkind⟩, rfl, rfl⟩
    · rename_i hkind
      obtain ⟨p, hp, hd⟩ := exists_if_of_readIfHead ⟨t, hkind⟩ h
      exact .inr ⟨.condition p, hp, hd⟩
    · rename_i hkind
      obtain ⟨p, hp, hd⟩ := exists_for_of_readForHead ⟨t, hkind⟩ h
      exact .inr ⟨.block (.loop p), hp, hd⟩
    · rename_i hkind
      obtain ⟨p, hp, hd⟩ := exists_with_of_readWithHead ⟨t, hkind⟩ h
      exact .inr ⟨.block (.binding p), hp, hd⟩
    · rename_i hkind
      obtain ⟨p, hp, hd⟩ := exists_call_of_readCall ⟨t, hkind⟩ h
      exact .inl ⟨.call p, hp, hd⟩
    · cases h
    · exact .inl (exists_leaf_of_readValue h)
  · exact .inl (exists_leaf_of_readValue h)

theorem exists_directive_of_readDirective {d : Directive} (hdecimal : s.Decimal)
    (h : s.readDirective = .ok (d, r)) :
    ∃ p : DirectivePhrase, s = r.prepend p.tokens ∧ d = p.directive := by
  obtain ⟨p, rfl, rfl⟩ | ⟨p | p, rfl, rfl⟩ := exists_piece_of_readDirective h
  · obtain ⟨p, rfl⟩ := p.exists_phrase fun t ht =>
      hdecimal t (by rw [tokens_prepend]; exact List.mem_append_left _ ht)
    exact ⟨.leaf p, by rw [p.tokens_piece]; rfl, p.directive_piece⟩
  · exact ⟨.condition p, rfl, rfl⟩
  · exact ⟨.block p, rfl, rfl⟩

end TokenStream

end TextTemplate
