import TextTemplate.Proofs.Source.Spelling

/-! Characters for the phrases of directives: every well-formed path, formatter, call and head of
a block is meant by a phrase that can be spelled, wherever its directive stands. -/

namespace TextTemplate

variable (opener p : Position)

section Terminals

theorem isIdentifier_word (k : Keyword) : IsIdentifier k.word.toList := by
  have hread : identifier? k.word.toList = some k.word.toList := by
    cases k <;> decide
  exact (isLongest_of_identifier? hread).shaped

theorem ofWord?_word (k : Keyword) : Keyword.ofWord? k.word = some k := by
  cases k <;> decide

theorem exists_keyword (k : Keyword) :
    ∃ (cs : List Char) (t : Terminal (.keyword k)), Spells opener p cs [t.1] := by
  have hkind : wordKind k.word.toList = .keyword k := by
    rw [wordKind, String.ofList_toList, ofWord?_word]
    rfl
  exact ⟨_, ⟨_, hkind⟩, spells_word (isIdentifier_word k)⟩

theorem exists_symbol (c : Char) {kind : TokenKind} (h : symbolKind? c = some kind) :
    ∃ (cs : List Char) (t : Terminal kind), Spells opener p cs [t.1] :=
  ⟨_, ⟨_, rfl⟩, spells_symbol h⟩

theorem exists_name {name : String} (h : IsName name) :
    ∃ (cs : List Char) (t : Terminal .identifier), t.1.value = name ∧ Spells opener p cs [t.1] := by
  have hkind : wordKind name.toList = .identifier := by
    rw [wordKind, String.ofList_toList, h.2]
    rfl
  exact ⟨_, ⟨_, hkind⟩, String.ofList_toList, spells_word h.1⟩

theorem exists_string (value : String) :
    ∃ (cs : List Char) (t : Terminal .string), t.1.value = value ∧ Spells opener p cs [t.1] :=
  ⟨_, ⟨_, rfl⟩, rfl, spells_string value⟩

theorem exists_segment {segment : String} (h : IsSegment segment) :
    ∃ (cs : List Char) (t : Segment), t.1.value = segment ∧ Spells opener p cs [t.1] := by
  rcases h with h | h
  · obtain ⟨cs, t, hvalue, hspells⟩ := exists_name opener p h
    exact ⟨cs, ⟨t.1, .inl t.2⟩, hvalue, hspells⟩
  · exact ⟨_, ⟨_, .inr rfl⟩, String.ofList_toList, spells_integer h⟩

theorem exists_literal {literal : Literal} (h : literal.WellFormed) :
    ∃ (cs : List Char) (t : LiteralToken), t.literal = literal ∧ Spells opener p cs [t.1] := by
  cases literal with
  | text value => exact ⟨_, ⟨_, .inl rfl⟩, rfl, spells_string value⟩
  | integer n =>
    obtain ⟨hpositive, hlength⟩ := h
    have hdigits := isInteger_toDigits n.toNat
    refine ⟨_, ⟨_, .inr ⟨rfl, ?_⟩⟩, ?_, spells_integer hdigits⟩
    · rw [IsDecimal, String.toList_ofList]
      exact ⟨hdigits, hlength⟩
    · simp [LiteralToken.literal, Int.toNat_of_nonneg hpositive]

end Terminals

theorem exists_steps {segments : List String} (h : ∀ segment ∈ segments, IsSegment segment) :
    ∃ (cs : List Char) (steps : List (Terminal .dot × Segment)),
      steps.map (·.2.1.value) = segments ∧ Spells opener p cs (pairTokens steps) := by
  induction segments generalizing p with
  | nil => exact ⟨[], [], rfl, .nil⟩
  | cons segment segments ih =>
    obtain ⟨hsegment, hsegments⟩ := List.forall_mem_cons.mp h
    obtain ⟨cs₁, dot, hdot⟩ := exists_symbol opener p '.' rfl
    obtain ⟨cs₂, t, ht, hspells⟩ := exists_segment opener (p.advance cs₁) hsegment
    obtain ⟨cs₃, steps, hsteps, hrest⟩ := ih (p.advance (cs₁ ++ cs₂)) hsegments
    refine ⟨cs₁ ++ cs₂ ++ cs₃, (dot, t) :: steps, ?_, (hdot.append hspells).append hrest⟩
    rw [List.map_cons, hsteps, ht]

theorem exists_path {path : Path} (h : path.WellFormed) :
    ∃ (cs : List Char) (q : PathPhrase), q.path = path ∧ Spells opener p cs q.tokens := by
  obtain ⟨segments, fromCurrent⟩ := path
  cases fromCurrent with
  | true =>
    obtain ⟨cs₁, head, hhead⟩ := exists_symbol opener p '@' rfl
    obtain ⟨cs₂, steps, hsteps, hrest⟩ := exists_steps opener (p.advance cs₁)
      (by simpa [Path.WellFormed] using h)
    refine ⟨cs₁ ++ cs₂, ⟨⟨head.1, .inl head.2⟩, steps⟩, ?_, hhead.append hrest⟩
    simp [PathPhrase.path, head.2, hsteps]
  | false =>
    simp only [Path.WellFormed, Bool.false_eq_true, if_false] at h
    obtain ⟨first, more, rfl, hfirst, hmore⟩ := h
    obtain ⟨cs₁, head, hvalue, hhead⟩ := exists_name opener p hfirst
    obtain ⟨cs₂, steps, hsteps, hrest⟩ := exists_steps opener (p.advance cs₁) hmore
    refine ⟨cs₁ ++ cs₂, ⟨⟨head.1, .inr head.2⟩, steps⟩, ?_, hhead.append hrest⟩
    simp [PathPhrase.path, head.2, hsteps, hvalue]

theorem exists_literals {literals : List Literal} (h : ∀ literal ∈ literals, literal.WellFormed) :
    ∃ (cs : List Char) (ts : List LiteralToken),
      ts.map LiteralToken.literal = literals ∧ Spells opener p cs (LiteralToken.tokens ts) := by
  induction literals generalizing p with
  | nil => exact ⟨[], [], rfl, .nil⟩
  | cons literal literals ih =>
    obtain ⟨hliteral, hliterals⟩ := List.forall_mem_cons.mp h
    obtain ⟨cs₁, t, ht, hspells⟩ := exists_literal opener p hliteral
    obtain ⟨cs₂, ts, hts, hrest⟩ := ih (p.advance cs₁) hliterals
    refine ⟨cs₁ ++ cs₂, t :: ts, ?_, hspells.append hrest⟩
    rw [List.map_cons, ht, hts]

theorem exists_formatter {call : FormatterCall} (h : call.WellFormed) :
    ∃ (cs : List Char) (q : FormatterPhrase), q.formatter = call ∧ Spells opener p cs q.tokens := by
  obtain ⟨hname, harguments⟩ := h
  obtain ⟨cs₁, pipe, hpipe⟩ := exists_symbol opener p '|' rfl
  obtain ⟨cs₂, t, ht, hspells⟩ := exists_name opener (p.advance cs₁) hname
  obtain ⟨cs₃, ts, hts, hrest⟩ := exists_literals opener (p.advance (cs₁ ++ cs₂))
    harguments
  refine ⟨cs₁ ++ cs₂ ++ cs₃, ⟨pipe, t, ts⟩, ?_, (hpipe.append hspells).append hrest⟩
  rw [FormatterPhrase.formatter, ht, hts]

theorem exists_value {path : Path} {formatter : Option FormatterCall} (hpath : path.WellFormed)
    (hformatter : ∀ call ∈ formatter, call.WellFormed) :
    ∃ (cs : List Char) (q : ValuePhrase), q.path.path = path ∧
      q.formatter.map FormatterPhrase.formatter = formatter ∧ Spells opener p cs q.tokens := by
  obtain ⟨cs₁, q, hq, hspells⟩ := exists_path opener p hpath
  cases formatter with
  | none => exact ⟨cs₁ ++ [], ⟨q, none⟩, hq, rfl, hspells.append .nil⟩
  | some call =>
    obtain ⟨cs₂, f, hf, hrest⟩ := exists_formatter opener (p.advance cs₁)
      (hformatter call rfl)
    exact ⟨cs₁ ++ cs₂, ⟨q, some f⟩, hq, congrArg some hf, hspells.append hrest⟩

theorem exists_root {root : Option Path} (h : ∀ path ∈ root, path.WellFormed) :
    ∃ (cs : List Char) (part : Option (Terminal (.keyword .withWord) × PathPhrase)),
      part.map (·.2.path) = root ∧ Spells opener p cs (CallPhrase.rootTokens part) := by
  cases root with
  | none => exact ⟨[], none, rfl, .nil⟩
  | some path =>
    obtain ⟨cs₁, word, hword⟩ := exists_keyword opener p .withWord
    obtain ⟨cs₂, q, hq, hspells⟩ := exists_path opener (p.advance cs₁) (h path rfl)
    exact ⟨cs₁ ++ cs₂, some (word, q), congrArg some hq, hword.append hspells⟩

theorem exists_arguments {arguments : List (String × Path)}
    (h : ∀ argument ∈ arguments, IsName argument.1 ∧ argument.2.WellFormed) :
    ∃ (cs : List Char) (qs : List ArgumentPhrase), qs.map ArgumentPhrase.argument = arguments ∧
      Spells opener p cs (qs.flatMap ArgumentPhrase.tokens) := by
  induction arguments generalizing p with
  | nil => exact ⟨[], [], rfl, .nil⟩
  | cons argument arguments ih =>
    obtain ⟨⟨hname, hpath⟩, harguments⟩ := List.forall_mem_cons.mp h
    obtain ⟨cs₁, comma, hcomma⟩ := exists_symbol opener p ',' rfl
    obtain ⟨cs₂, t, ht, hspells⟩ := exists_name opener (p.advance cs₁) hname
    obtain ⟨cs₃, equals, hequals⟩ := exists_symbol opener (p.advance (cs₁ ++ cs₂)) '=' rfl
    obtain ⟨cs₄, q, hq, hsource⟩ := exists_path opener
      (p.advance (cs₁ ++ cs₂ ++ cs₃)) hpath
    have hargument := ((hcomma.append hspells).append hequals).append hsource
    obtain ⟨cs₅, qs, hqs, hrest⟩ := ih (p.advance (cs₁ ++ cs₂ ++ cs₃ ++ cs₄)) harguments
    refine ⟨cs₁ ++ cs₂ ++ cs₃ ++ cs₄ ++ cs₅, ⟨comma, t, equals, q⟩ :: qs, ?_,
      hargument.append hrest⟩
    rw [List.map_cons, hqs, ArgumentPhrase.argument, ht, hq]

theorem exists_call (name : String) {root : Option Path} {arguments : List (String × Path)}
    (hroot : ∀ path ∈ root, path.WellFormed)
    (harguments : ∀ argument ∈ arguments, IsName argument.1 ∧ argument.2.WellFormed)
    (hdistinct : (arguments.map Prod.fst).Nodup) :
    ∃ (cs : List Char) (q : CallPhrase), q.name.name = name ∧ q.root.map (·.2.path) = root ∧
      q.arguments.map ArgumentPhrase.argument = arguments ∧ Spells opener p cs q.tokens := by
  obtain ⟨cs₁, word, hword⟩ := exists_keyword opener p .callWord
  obtain ⟨cs₂, t, ht, hname⟩ := exists_string opener (p.advance cs₁) name
  obtain ⟨cs₃, part, hpart, hspells⟩ := exists_root opener (p.advance (cs₁ ++ cs₂)) hroot
  obtain ⟨cs₄, qs, hqs, hrest⟩ := exists_arguments opener (p.advance (cs₁ ++ cs₂ ++ cs₃)) harguments
  have hnodup : (qs.map (·.name.1.value)).Nodup := by
    rw [← hqs, List.map_map] at hdistinct
    exact hdistinct
  refine ⟨cs₁ ++ cs₂ ++ cs₃ ++ cs₄, ⟨word, .quoted t, part, qs, hnodup⟩, ht, hpart, hqs, ?_⟩
  simpa [CallPhrase.tokens, NamePhrase.tokens] using
    ((hword.append hname).append hspells).append hrest

theorem exists_condition (word : Keyword) {path : Path} (h : path.WellFormed) :
    ∃ (cs : List Char) (t : Terminal (.keyword word)) (q : PathPhrase), q.path = path ∧
      Spells opener p cs (t.1 :: q.tokens) := by
  obtain ⟨cs₁, t, ht⟩ := exists_keyword opener p word
  obtain ⟨cs₂, q, hq, hspells⟩ := exists_path opener (p.advance cs₁) h
  exact ⟨cs₁ ++ cs₂, t, q, hq, ht.append hspells⟩

theorem exists_index {index : Option String} (h : ∀ name ∈ index, IsName name) :
    ∃ (cs : List Char) (part : Option (Terminal .comma × Terminal .identifier)),
      part.map (·.2.1.value) = index ∧ Spells opener p cs (ForPhrase.indexTokens part) := by
  cases index with
  | none => exact ⟨[], none, rfl, .nil⟩
  | some name =>
    obtain ⟨cs₁, comma, hcomma⟩ := exists_symbol opener p ',' rfl
    obtain ⟨cs₂, t, ht, hspells⟩ := exists_name opener (p.advance cs₁) (h name rfl)
    exact ⟨cs₁ ++ cs₂, some (comma, t), congrArg some ht, hcomma.append hspells⟩

theorem exists_for {item : String} {index : Option String} {source : Path} (hitem : IsName item)
    (hindex : ∀ name ∈ index, IsName name) (hsource : source.WellFormed) :
    ∃ (cs : List Char) (q : ForPhrase), q.item.1.value = item ∧
      q.index.map (·.2.1.value) = index ∧ q.source.path = source ∧ Spells opener p cs q.tokens := by
  obtain ⟨cs₁, word, hword⟩ := exists_keyword opener p .forWord
  obtain ⟨cs₂, t, ht, hspells⟩ := exists_name opener (p.advance cs₁) hitem
  obtain ⟨cs₃, part, hpart, hcomma⟩ := exists_index opener (p.advance (cs₁ ++ cs₂)) hindex
  obtain ⟨cs₄, inWord, hin⟩ := exists_keyword opener (p.advance (cs₁ ++ cs₂ ++ cs₃)) .inWord
  obtain ⟨cs₅, q, hq, hrest⟩ := exists_path opener (p.advance (cs₁ ++ cs₂ ++ cs₃ ++ cs₄)) hsource
  refine ⟨cs₁ ++ cs₂ ++ cs₃ ++ cs₄ ++ cs₅, ⟨word, t, part, inWord, q⟩, ht, hpart, hq, ?_⟩
  simpa [ForPhrase.tokens] using
    (((hword.append hspells).append hcomma).append hin).append hrest

theorem exists_with {name : String} {source : Path} (hname : IsName name)
    (hsource : source.WellFormed) :
    ∃ (cs : List Char) (q : WithPhrase), q.name.1.value = name ∧ q.source.path = source ∧
      Spells opener p cs q.tokens := by
  obtain ⟨cs₁, word, hword⟩ := exists_keyword opener p .withWord
  obtain ⟨cs₂, q, hq, hspells⟩ := exists_path opener (p.advance cs₁) hsource
  obtain ⟨cs₃, asWord, has⟩ := exists_keyword opener (p.advance (cs₁ ++ cs₂)) .asWord
  obtain ⟨cs₄, t, ht, hrest⟩ := exists_name opener (p.advance (cs₁ ++ cs₂ ++ cs₃)) hname
  refine ⟨cs₁ ++ cs₂ ++ cs₃ ++ cs₄, ⟨word, q, asWord, t⟩, ht, hq, ?_⟩
  simpa [WithPhrase.tokens] using ((hword.append hspells).append has).append hrest

end TextTemplate
