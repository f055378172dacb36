import TextTemplate.Proofs.Grammar.Readable

/-! Readers of directives accept the tokens of a phrase, and answer what it means, when nothing
behind them prolongs it. -/

namespace TextTemplate

@[simp] theorem Attempt.ok_bind {α β : Type} (a : α) (f : α → Attempt β) :
    (Except.ok a : Attempt α) >>= f = f a := rfl

@[simp] theorem Attempt.error_bind {α β : Type} (e : CompileError) (f : α → Attempt β) :
    (Except.error e : Attempt α) >>= f = .error e := rfl

@[simp] theorem Attempt.mapError_ok {α ε : Type} (f : ε → CompileError) (a : α) :
    Except.mapError f (.ok a) = (.ok a : Attempt α) := rfl

@[simp] theorem Attempt.pure_eq {α : Type} (a : α) : (pure a : Attempt α) = .ok a := rfl

namespace TokenStream

def prepend (tokens : List Token) (s : TokenStream) : TokenStream := tokens.foldr next s

@[simp] theorem prepend_nil (s : TokenStream) : s.prepend [] = s := rfl

@[simp] theorem prepend_cons (t : Token) (tokens : List Token) (s : TokenStream) :
    s.prepend (t :: tokens) = next t (s.prepend tokens) := rfl

theorem prepend_append (tokens tokens' : List Token) (s : TokenStream) :
    s.prepend (tokens ++ tokens') = (s.prepend tokens').prepend tokens :=
  List.foldr_append

/-- The stream goes on, and with a token of none of the kinds. -/
def Lacks (s : TokenStream) (kinds : List TokenKind) : Prop :=
  ∃ t, s.peek = .ok t ∧ t.kind ∉ kinds

@[simp] theorem lacks_next {t : Token} {s : TokenStream} {kinds : List TokenKind} :
    (next t s).Lacks kinds ↔ t.kind ∉ kinds := by
  simp [Lacks, peek]

theorem Lacks.mono {s : TokenStream} {kinds kinds' : List TokenKind} (h : s.Lacks kinds)
    (hkinds : kinds' ⊆ kinds) : s.Lacks kinds' := by
  obtain ⟨t, ht, hkind⟩ := h
  exact ⟨t, ht, fun hmem => hkind (hkinds hmem)⟩

@[simp] theorem expect_terminal {kind : TokenKind} (t : Terminal kind) (s : TokenStream)
    (expected : Expected) : (next t.1 s).expect kind expected = .ok (t.1, s) := by
  simp [expect, t.2]

@[simp] theorem accept_terminal {kind : TokenKind} (t : Terminal kind) (s : TokenStream) :
    (next t.1 s).accept kind = .ok (true, s) := by
  simp [accept, t.2]

theorem accept_of_lacks {s : TokenStream} (kind : TokenKind) {kinds : List TokenKind}
    (h : s.Lacks kinds) (hkind : kind ∈ kinds) : s.accept kind = .ok (false, s) := by
  obtain ⟨t, ht, hkinds⟩ := h
  cases s with
  | next t' s =>
    obtain rfl : t' = t := by simpa [peek] using ht
    have hne : t'.kind ≠ kind := by
      rintro rfl
      exact hkinds hkind
    simp [accept, hne]
  | ended => rfl
  | broken => simp [peek] at ht

/-- Reading arguments, without the facts that its recursion rests on. -/
theorem readArguments_eq (taken : List String) (s : TokenStream) :
    s.readArguments taken = (do
      let (given, s) ← s.accept .comma
      if given then
        let (argument, s) ← s.readArgument taken
        let (arguments, s) ← s.readArguments (argument.1 :: taken)
        return (argument :: arguments, s)
      else return ([], s)) := by
  rw [readArguments]
  split
  · rename_i hcomma
    simp [hcomma]
  · rename_i hcomma
    simp [hcomma]
  · rename_i hcomma
    split
    · rename_i hargument
      simp [hcomma, hargument]
    · rename_i hargument
      simp [hcomma, hargument]

variable {s : TokenStream}

theorem readSegments_of_lacks (h : s.Lacks [.dot]) : s.readSegments = .ok ([], s) := by
  obtain ⟨t, ht, hkind⟩ := h
  cases s with
  | next t' s =>
    obtain rfl : t' = t := by simpa [peek] using ht
    have hdot : t'.kind ≠ .dot := by simpa using hkind
    cases s <;> simp [readSegments, hdot]
  | ended => rfl
  | broken => simp [peek] at ht

theorem readSegments_prepend (steps : List (Terminal .dot × Segment)) (h : s.Lacks [.dot]) :
    (s.prepend (pairTokens steps)).readSegments = .ok (steps.map (·.2.1.value), s) := by
  induction steps with
  | nil => exact readSegments_of_lacks h
  | cons step steps ih =>
    obtain ⟨dot, segment⟩ := step
    have htokens : pairTokens ((dot, segment) :: steps) = dot.1 :: segment.1 :: pairTokens steps :=
      rfl
    rw [htokens, prepend_cons, prepend_cons, readSegments, if_pos dot.2, if_pos segment.2, ih]
    rfl

theorem readPath_prepend (p : PathPhrase) (h : s.Lacks [.dot]) :
    (s.prepend p.tokens).readPath = .ok (p.path, s) := by
  have hsteps := readSegments_prepend p.steps h
  rw [PathPhrase.tokens, prepend_cons, readPath]
  rcases p.head.2 with hhead | hhead
  · simp [hhead, hsteps, PathPhrase.path]
  · simp [hhead, hsteps, PathPhrase.path]

theorem readLiterals_of_lacks (h : s.Lacks [.string, .integer]) :
    s.readLiterals = .ok ([], s) := by
  obtain ⟨t, ht, hkind⟩ := h
  cases s with
  | next t' s =>
    obtain rfl : t' = t := by simpa [peek] using ht
    rw [readLiterals]
    split <;> simp_all
  | ended => rfl
  | broken => simp [peek] at ht

theorem readLiterals_readable (arguments : List ReadableToken) (h : s.Lacks [.string, .integer]) :
    (s.prepend (ReadableToken.tokens arguments)).readLiterals =
      .ok (arguments.map ReadableToken.literal, s) := by
  induction arguments with
  | nil => exact readLiterals_of_lacks h
  | cons t arguments ih =>
    have htokens : ReadableToken.tokens (t :: arguments) =
        t.1 :: ReadableToken.tokens arguments := rfl
    rw [htokens, prepend_cons, readLiterals]
    rcases t.2 with hkind | ⟨hkind, n, hread⟩
    · simp [hkind, ih, ReadableToken.literal]
    · simp [hkind, hread, ih, ReadableToken.literal, Except.toOption]

theorem readFormatter_piece (p : Option FormatterPiece) (h : s.Lacks [.pipe, .string, .integer]) :
    (s.prepend (p.elim [] FormatterPiece.tokens)).readFormatter =
      .ok (p.map FormatterPiece.formatter, s) := by
  cases p with
  | none =>
    have haccept := accept_of_lacks .pipe h (by simp)
    simp [readFormatter, haccept]
  | some p =>
    have hliterals := readLiterals_readable p.arguments (h.mono (by simp))
    simp [readFormatter, FormatterPiece.tokens, hliterals, FormatterPiece.formatter]

theorem lacks_dot_formatter (p : Option FormatterPiece) (h : s.Lacks [.dot]) :
    (s.prepend (p.elim [] FormatterPiece.tokens)).Lacks [.dot] := by
  cases p with
  | none => exact h
  | some p => simp [FormatterPiece.tokens, p.pipe.2]

theorem readNames_of_lacks (h : s.Lacks [.dot]) : s.readNames = .ok ([], s) := by
  obtain ⟨t, ht, hkind⟩ := h
  cases s with
  | next t' s =>
    obtain rfl : t' = t := by simpa [peek] using ht
    have hdot : t'.kind ≠ .dot := by simpa using hkind
    cases s <;> simp [readNames, hdot]
  | ended => rfl
  | broken => simp [peek] at ht

theorem readNames_prepend (more : List (Terminal .dot × Terminal .identifier))
    (h : s.Lacks [.dot]) :
    (s.prepend (pairTokens more)).readNames = .ok (more.map (·.2.1.value), s) := by
  induction more with
  | nil => exact readNames_of_lacks h
  | cons part more ih =>
    obtain ⟨dot, name⟩ := part
    have htokens : pairTokens ((dot, name) :: more) = dot.1 :: name.1 :: pairTokens more := rfl
    rw [htokens, prepend_cons, prepend_cons, readNames, if_pos dot.2, if_pos name.2, ih]
    rfl

theorem readTemplateName_prepend (p : NamePhrase) (h : s.Lacks [.dot]) :
    (s.prepend p.tokens).readTemplateName = .ok (p.name, s) := by
  cases p with
  | quoted t => simp [NamePhrase.tokens, readTemplateName, t.2, NamePhrase.name]
  | dotted first more =>
    have hmore := readNames_prepend more h
    simp [NamePhrase.tokens, readTemplateName, first.2, hmore, NamePhrase.name]

theorem readRoot_prepend (root : Option (Terminal (.keyword .withWord) × PathPhrase))
    (h : s.Lacks [.dot, .keyword .withWord]) :
    (s.prepend (CallPhrase.rootTokens root)).readRoot = .ok (root.map (·.2.path), s) := by
  cases root with
  | none =>
    have haccept := accept_of_lacks (.keyword .withWord) h (by simp)
    simp [readRoot, CallPhrase.rootTokens, haccept]
  | some part =>
    have hpath := readPath_prepend part.2 (h.mono (by simp))
    simp [readRoot, CallPhrase.rootTokens, hpath]

theorem lacks_arguments (arguments : List ArgumentPhrase) {kinds : List TokenKind}
    (h : s.Lacks kinds) (hcomma : .comma ∉ kinds) :
    (s.prepend (arguments.flatMap ArgumentPhrase.tokens)).Lacks kinds := by
  cases arguments with
  | nil => exact h
  | cons p arguments => simp [ArgumentPhrase.tokens, p.comma.2, hcomma]

theorem readArguments_prepend (arguments : List ArgumentPhrase) {taken : List String}
    (h : s.Lacks [.dot, .comma]) (hdistinct : (arguments.map (·.name.1.value)).Nodup)
    (htaken : ∀ p ∈ arguments, p.name.1.value ∉ taken) :
    (s.prepend (arguments.flatMap ArgumentPhrase.tokens)).readArguments taken =
      .ok (arguments.map ArgumentPhrase.argument, s) := by
  induction arguments generalizing taken with
  | nil =>
    have haccept := accept_of_lacks (.comma) h (by simp)
    rw [List.flatMap_nil, prepend_nil, readArguments_eq]
    simp [haccept]
  | cons p arguments ih =>
    simp only [List.map_cons, List.nodup_cons, List.forall_mem_cons] at hdistinct htaken
    have hrest : ∀ p' ∈ arguments, p'.name.1.value ∉ p.name.1.value :: taken := by
      intro p' hp' hmem
      rcases List.mem_cons.mp hmem with heq | hmem
      · exact hdistinct.1 (heq ▸ List.mem_map_of_mem hp')
      · exact htaken.2 p' hp' hmem
    have hpath := readPath_prepend p.path (lacks_arguments arguments (h.mono (by simp)) (by simp))
    rw [List.flatMap_cons, prepend_append, readArguments_eq]
    simp [ArgumentPhrase.tokens, readArgument, htaken.1, hpath, ArgumentPhrase.argument,
      ih hdistinct.2 hrest]

theorem lacks_root (root : Option (Terminal (.keyword .withWord) × PathPhrase))
    (h : s.Lacks [.dot]) : (s.prepend (CallPhrase.rootTokens root)).Lacks [.dot] := by
  cases root with
  | none => exact h
  | some part => simp [CallPhrase.rootTokens, part.1.2]

theorem readCall_prepend (p : CallPhrase) (h : s.Lacks [.dot, .comma, .keyword .withWord]) :
    (s.prepend p.tokens.tail).readCall = .ok (p.directive, s) := by
  have harguments : (s.prepend (p.arguments.flatMap ArgumentPhrase.tokens)).readArguments [] =
      .ok (p.arguments.map ArgumentPhrase.argument, s) :=
    readArguments_prepend p.arguments (h.mono (by simp)) p.distinct (by simp)
  have hlacks : (s.prepend (p.arguments.flatMap ArgumentPhrase.tokens)).Lacks
      [.dot, .keyword .withWord] :=
    lacks_arguments p.arguments (h.mono (by simp)) (by simp)
  have hroot := readRoot_prepend p.root hlacks
  have hname := readTemplateName_prepend p.name (lacks_root p.root (hlacks.mono (by simp)))
  rw [CallPhrase.tokens, List.tail_cons, prepend_append, prepend_append]
  simp [readCall, hname, hroot, harguments, CallPhrase.directive]

theorem readForHead_prepend (p : ForPhrase) (h : s.Lacks [.dot]) :
    (s.prepend p.tokens.tail).readForHead = .ok (p.directive, s) := by
  have hsource := readPath_prepend p.source h
  cases hindex : p.index with
  | none =>
    have hlacks : (next p.inWord.1 (s.prepend p.source.tokens)).Lacks [.comma] := by
      simp [p.inWord.2]
    have haccept := accept_of_lacks .comma hlacks (by simp)
    simp [ForPhrase.tokens, ForPhrase.indexTokens, readForHead, readIndex, hindex, haccept,
      hsource, ForPhrase.directive]
  | some part =>
    simp [ForPhrase.tokens, ForPhrase.indexTokens, readForHead, readIndex, hindex, hsource,
      ForPhrase.directive]

theorem readWithHead_prepend (p : WithPhrase) :
    (s.prepend p.tokens.tail).readWithHead = .ok (p.directive, s) := by
  have hsource := readPath_prepend p.source
    (s := next p.asWord.1 (next p.name.1 s)) (by simp [p.asWord.2])
  rw [WithPhrase.tokens, List.tail_cons, prepend_append]
  simp [readWithHead, hsource, WithPhrase.directive]

theorem readDirective_path (p : PathPhrase) (tokens : List Token) :
    (s.prepend (p.tokens ++ tokens)).readDirective =
      (s.prepend (p.tokens ++ tokens)).readValue := by
  rw [PathPhrase.tokens, List.cons_append, prepend_cons, readDirective]
  rcases p.head.2 with hhead | hhead <;> simp [hhead]

theorem readDirective_leaf (p : LeafPiece) (closer : Terminal .closer) :
    ((next closer.1 s).prepend p.tokens).readDirective = .ok (p.directive, next closer.1 s) := by
  have hlacks : (next closer.1 s).Lacks
      [.dot, .pipe, .comma, .string, .integer, .keyword .withWord] := by
    simp [closer.2]
  cases p with
  | comment t => simp [LeafPiece.tokens, readDirective, t.2, LeafPiece.directive]
  | value path formatter =>
    have hpath := readPath_prepend path (lacks_dot_formatter formatter (hlacks.mono (by simp)))
    have hformatter := readFormatter_piece formatter (hlacks.mono (by simp))
    rw [LeafPiece.tokens, readDirective_path, prepend_append, readValue]
    simp [hpath, hformatter, LeafPiece.directive]
  | call p =>
    have hcall := readCall_prepend p (hlacks.mono (by simp))
    simpa [LeafPiece.tokens, CallPhrase.tokens, readDirective, p.word.2, LeafPiece.directive]
      using hcall

theorem readDirective_head (p : HeadPhrase) (closer : Terminal .closer) :
    ((next closer.1 s).prepend p.tokens).readDirective = .ok (p.directive, next closer.1 s) := by
  have hlacks : (next closer.1 s).Lacks [.dot, .comma] := by
    simp [closer.2]
  rcases p with p | p | p
  · have hpath := readPath_prepend p.condition (hlacks.mono (by simp))
    simp [HeadPhrase.tokens, IfPhrase.tokens, readDirective, p.word.2, readIfHead, hpath,
      HeadPhrase.directive]
  · have hhead := readForHead_prepend p (hlacks.mono (by simp))
    simpa [HeadPhrase.tokens, BlockPhrase.tokens, ForPhrase.tokens, readDirective, p.word.2,
      HeadPhrase.directive, BlockPhrase.directive] using hhead
  · have hhead := readWithHead_prepend p (s := next closer.1 s)
    simpa [HeadPhrase.tokens, BlockPhrase.tokens, WithPhrase.tokens, readDirective, p.word.2,
      HeadPhrase.directive, BlockPhrase.directive] using hhead

theorem readDirective_prepend (p : DirectivePhrase) (closer : Terminal .closer) :
    ((next closer.1 s).prepend p.tokens).readDirective = .ok (p.directive, next closer.1 s) := by
  cases p with
  | leaf p =>
    rw [DirectivePhrase.tokens, DirectivePhrase.directive, ← p.tokens_piece, ← p.directive_piece]
    exact readDirective_leaf p.piece closer
  | condition p => exact readDirective_head (.condition p) closer
  | block p => exact readDirective_head (.block p) closer

end TokenStream

end TextTemplate
