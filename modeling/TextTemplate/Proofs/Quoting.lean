import TextTemplate.Proofs.Place

/-! String literals. Every string has a literal in either kind of quote, and the value of a literal is
read off its characters from left to right. -/

namespace TextTemplate

section Values

/-- The characters that stand for others behind a backslash. -/
def escapes : List (Char × Char) :=
  [('n', '\n'), ('t', '\t'), ('\\', '\\'), ('"', '"'), ('\'', '\'')]

/-- What a backslash denotes together with the character behind it. -/
def denoted (c : Char) : List Char :=
  match escapes.lookup c with
  | some d => [d]
  | none => ['\\', c]

/-- What the characters between the quotes of a literal denote. -/
def decoded : List Char → List Char
  | [] => []
  | [c] => [c]
  | c :: d :: rest => if c = '\\' then denoted d ++ decoded rest else c :: decoded (d :: rest)

theorem unescape_eq_denoted (c : Char) : unescape c = denoted c := by
  unfold unescape denoted
  split
  · rfl
  · rfl
  · rfl
  · rfl
  · rfl
  · have hnone : escapes.lookup c = none := List.lookup_eq_none_iff.mpr (by simp_all [escapes])
    rw [hnone]

theorem decoded_pair (c : Char) (rest : List Char) :
    decoded ('\\' :: c :: rest) = unescape c ++ decoded rest := by
  rw [decoded, if_pos rfl, unescape_eq_denoted]

theorem decoded_char {c : Char} (hslash : c ≠ '\\') (rest : List Char) :
    decoded (c :: rest) = c :: decoded rest := by
  cases rest with
  | nil => rfl
  | cons d rest => rw [decoded, if_neg hslash]

theorem StringBody.exists_decoded {quote : Char} {value raw : List Char}
    (h : StringBody quote value raw) : ∃ inside, raw = inside ++ [quote] ∧ value = decoded inside := by
  induction h with
  | close => exact ⟨[], rfl, rfl⟩
  | pair c _ ih =>
    obtain ⟨inside, rfl, rfl⟩ := ih
    exact ⟨'\\' :: c :: inside, rfl, (decoded_pair c inside).symm⟩
  | @char _ _ c _ hslash _ ih =>
    obtain ⟨inside, rfl, rfl⟩ := ih
    exact ⟨c :: inside, rfl, (decoded_char hslash inside).symm⟩

end Values

section Literals

/-- The text of a string literal: quotes and backslashes stand behind a backslash. -/
def escape (quote : Char) (value : List Char) : List Char :=
  value.flatMap fun c => if c = quote ∨ c = '\\' then ['\\', c] else [c]

def literal (quote : Char) (value : List Char) : List Char :=
  quote :: (escape quote value ++ [quote])

theorem unescape_slash : unescape '\\' = ['\\'] := rfl

theorem unescape_quote {quote : Char} (h : isQuote quote = true) : unescape quote = [quote] := by
  simp only [isQuote, Bool.or_eq_true, beq_iff_eq] at h
  rcases h with rfl | rfl <;> rfl

theorem stringBody_escape {quote : Char} (h : isQuote quote = true) (value : List Char) :
    StringBody quote value (escape quote value ++ [quote]) := by
  induction value with
  | nil => exact .close
  | cons c value ih =>
    have hescape : escape quote (c :: value) =
        (if c = quote ∨ c = '\\' then ['\\', c] else [c]) ++ escape quote value := rfl
    rw [hescape, List.append_assoc]
    by_cases hc : c = quote ∨ c = '\\'
    -- The pair stands for its second character, as both escaped ones stand for themselves.
    · have hunescape : unescape c = [c] := by
        rcases hc with rfl | rfl
        · exact unescape_quote h
        · exact unescape_slash
      have hpair := StringBody.pair c ih
      rw [hunescape] at hpair
      rw [if_pos hc]
      exact hpair
    · obtain ⟨hquote, hslash⟩ := not_or.mp hc
      rw [if_neg hc]
      exact .char hquote hslash ih

theorem scanDirective_quote {opener p : Position} {c : Char} (h : isQuote c = true)
    (more : List Char) :
    scanDirective opener ⟨p, c :: more⟩ = scanString opener ⟨p, c :: more⟩ c more := by
  simp only [isQuote, Bool.or_eq_true, beq_iff_eq] at h
  rcases h with rfl | rfl <;> rfl

theorem scanDirective_literal {quote : Char} (h : isQuote quote = true) (opener p : Position)
    (value : String) (rest : List Char) :
    scanDirective opener ⟨p, literal quote value.toList ++ rest⟩ =
      .token ⟨.string, value, p⟩ (.directive opener)
        ⟨p.advance (literal quote value.toList), rest⟩ := by
  have hbody := (stringBody_escape h value.toList).stringBody?_append (isQuote_ne_slash h) rest
  have hbehind := behind_append (p := p) (literal quote value.toList) rest
  rw [literal, List.cons_append] at hbehind ⊢
  rw [scanDirective_quote h, scanString, hbody]
  simp only [String.ofList_toList, hbehind]

/-- Inside a directive the scan draws a literal as one token. -/
theorem scanStep_literal {zone : Zone} {opener : Position} (hzone : zone.Inside opener)
    {gap : List Char} (hgap : gap.all isBlank = true) {quote : Char} (hquote : isQuote quote = true)
    (p : Position) (value : String) (rest : List Char) :
    scanStep zone ⟨p, gap ++ (literal quote value.toList ++ rest)⟩ =
      .token ⟨.string, value, p.advance gap⟩ (.directive opener)
        ⟨p.advance (gap ++ literal quote value.toList), rest⟩ := by
  have hskip : Cursor.skipBlank ⟨p, gap ++ (literal quote value.toList ++ rest)⟩ =
      ⟨p.advance gap, literal quote value.toList ++ rest⟩ := by
    refine skipBlank_append hgap fun c hc => ?_
    obtain rfl := Option.some.inj hc
    exact not_isBlank_of_isQuote hquote
  have hash : (literal quote value.toList ++ rest).head? ≠ some '#' := by
    intro hhead
    exact isQuote_ne_hash hquote (Option.some.inj hhead)
  rw [Position.advance_append]
  rcases hzone with rfl | rfl
  · rw [scanStep, hskip, if_neg hash]
    exact scanDirective_literal hquote opener (p.advance gap) value rest
  · rw [scanStep, hskip]
    exact scanDirective_literal hquote opener (p.advance gap) value rest

end Literals

section Scanned

/-- A string token is what the scan makes of a literal, up to the quote that closes it. -/
theorem Reading.exists_literal {zone zone' : Zone} {c c' : Cursor} {t : Tile}
    (h : Reading zone c t zone' c') (hkind : t.token.kind = .string) :
    ∃ opener quote inside, zone' = .directive opener ∧ isQuote quote = true ∧
      t.span = quote :: (inside ++ [quote]) ∧ t.token.value = String.ofList (decoded inside) := by
  have howns := h.owns
  rw [Token.Owns, hkind] at howns
  obtain ⟨quote, raw, hspan, hquote, hbody⟩ := howns
  obtain ⟨inside, rfl, hvalue⟩ := hbody.exists_decoded
  have hdecoded : t.token.value = String.ofList (decoded inside) := by
    rw [← hvalue, String.ofList_toList]
  cases h.move with
  | text hother | opener hother | comment hother | closer _ hother =>
    rw [hkind] at hother
    cases hother
  | @inner _ _ _ opener => exact ⟨opener, quote, inside, rfl, hquote, hspan, hdecoded⟩

theorem exists_literal_of_scanFrom {zone : Zone} {c : Cursor} {text : List Char}
    {before after : List Token} {t : Token} (hc : c.StandsIn text)
    (htokens : (scanFrom zone c).tokens = before ++ t :: after) (hkind : t.kind = .string) :
    ∃ front quote inside behind opener, isQuote quote = true ∧
      text = front ++ (quote :: (inside ++ [quote]) ++ behind) ∧
      t.position = Position.start.advance front ∧ t.value = String.ofList (decoded inside) ∧
      after = (scanFrom (.directive opener)
        ⟨Position.start.advance (front ++ quote :: (inside ++ [quote])), behind⟩).tokens := by
  fun_induction scanFrom zone c generalizing before with
  | case1 zone c t' hfinished =>
    obtain ⟨-, -, rfl⟩ := scanStep_eq_finished hfinished
    have hmem : t ∈ before ++ t :: after := by simp
    rw [← htokens] at hmem
    rw [List.mem_singleton.mp hmem] at hkind
    cases hkind
  | case2 zone c e he => simp at htokens
  | case3 zone c t' zone' c' htoken ih =>
    obtain ⟨tile, rfl, hreading⟩ := exists_reading_of_scanStep htoken
    cases before with
    | nil =>
      obtain ⟨rfl, rfl⟩ := List.cons.inj htokens
      obtain ⟨opener, quote, inside, rfl, hquote, hspan, hvalue⟩ := hreading.exists_literal hkind
      obtain ⟨front, hfront, rfl⟩ := hc
      obtain ⟨position, rest⟩ := c'
      have hbehind : position = Position.start.advance (front ++ tile.gap ++ tile.span) := by
        have hat := hreading.behind_at
        rw [hfront, ← Position.advance_append, Tile.chars, ← List.append_assoc] at hat
        exact hat
      refine ⟨front ++ tile.gap, quote, inside, rest, opener, hquote, ?_, ?_, hvalue, ?_⟩
      · rw [hreading.rest_eq, Tile.chars, ← hspan]
        simp only [List.append_assoc]
      · rw [hreading.token_at, hfront, Position.advance_append]
      · rw [← hspan, ← hbehind]
    | cons t'' before =>
      obtain ⟨-, htail⟩ := List.cons.inj htokens
      exact ih (hc.advance hreading.rest_eq hreading.behind_at) htail

/-- Every string has a literal in either kind of quote, wherever a token of a directive may stand.
The value of a literal is what its characters denote, read from left to right. -/
theorem scan_literals :
    (∀ (zone : Zone) (opener p : Position) (gap : List Char) (quote : Char) (value : String)
        (rest : List Char), zone.Inside opener → gap.all isBlank = true → isQuote quote = true →
      scanStep zone ⟨p, gap ++ (literal quote value.toList ++ rest)⟩ =
        .token ⟨.string, value, p.advance gap⟩ (.directive opener)
          ⟨p.advance (gap ++ literal quote value.toList), rest⟩) ∧
    ∀ (text : String) (before after : List Token) (t : Token),
      (scan text).tokens = before ++ t :: after → t.kind = .string →
      ∃ front quote inside behind opener, isQuote quote = true ∧
        text.toList = front ++ (quote :: (inside ++ [quote]) ++ behind) ∧
        t.position = Position.start.advance front ∧ t.value = String.ofList (decoded inside) ∧
        after = (scanFrom (.directive opener)
          ⟨Position.start.advance (front ++ quote :: (inside ++ [quote])), behind⟩).tokens := by
  refine ⟨?_, ?_⟩
  · intro zone opener p gap quote value rest hzone hgap hquote
    exact scanStep_literal hzone hgap hquote p value rest
  · intro text before after t htokens hkind
    exact exists_literal_of_scanFrom (Cursor.standsIn_ofText text) htokens hkind

/-- The closer, the line feed and the other quote are characters of the string like any other. -/
theorem scan_literals_closer :
    Zone.Inside (.opened .start) .start ∧ [' '].all isBlank = true ∧ isQuote '\'' = true ∧
    literal '\'' "it's \\ \"\x7d\x7d\n".toList =
      "'it\\'s \\\\ \"\x7d\x7d\n'".toList ∧
    scanStep (.opened .start) ⟨⟨2, 1, 3⟩, [' '] ++
        (literal '\'' "it's \\ \"\x7d\x7d\n".toList ++ ['}', '}'])⟩ =
      .token ⟨.string, "it's \\ \"\x7d\x7d\n", ⟨3, 1, 4⟩⟩ (.directive .start)
        ⟨⟨18, 2, 2⟩, ['}', '}']⟩ :=
  ⟨.inl rfl, rfl, rfl, by decide, scan_literals.1 (.opened .start) .start ⟨2, 1, 3⟩ [' '] '\''
    "it's \\ \"\x7d\x7d\n" ['}', '}'] (.inl rfl) rfl rfl⟩

-- Other pairs stay as they are.
example : decoded ['\\', 'q', '\\', '\\', 'n', '\\', 'n'] = ['\\', 'q', '\\', 'n', '\n'] := rfl

end Scanned

end TextTemplate
