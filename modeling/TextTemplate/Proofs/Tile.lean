import TextTemplate.Proofs.Lexeme

/-! Tokens with the characters that they stand on. One step of the scan takes a tile off the front
of the text: blanks, and behind them the characters that belong to the token. -/

namespace TextTemplate

/-- Kinds of tokens that stand between the delimiters of a directive. -/
def TokenKind.isInner : TokenKind → Bool
  | .text | .opener | .closer | .comment | .endOfInput => false
  | _ => true

/-- The token stands on these characters. Only literals and comments differ from their value. -/
def Token.Owns (t : Token) (span : List Char) : Prop :=
  match t.kind with
  | .string => ∃ quote raw, span = quote :: raw ∧ isQuote quote = true ∧
      StringBody quote t.value.toList raw
  | .comment => ∃ body, span = '#' :: body ∧ t.value = trim (String.ofList body)
  | _ => span = t.value.toList

structure Tile where
  gap : List Char
  token : Token
  span : List Char

namespace Tile

def chars (t : Tile) : List Char := t.gap ++ t.span

def textOf (tiles : List Tile) : List Char := tiles.flatMap chars

end Tile

/-- Words and integers are the longest of their shape at the front of the text. -/
def TokenKind.LongestIn (kind : TokenKind) (span text : List Char) : Prop :=
  match kind with
  | .integer => IsLongest IsInteger span text
  | .identifier => IsLongest IsIdentifier span text ∧ Keyword.ofWord? (String.ofList span) = none
  | .keyword k => IsLongest IsIdentifier span text ∧ Keyword.ofWord? (String.ofList span) = some k
  | _ => True

def BeginsCloser (cs : List Char) : Prop := ['-', '}', '}'] <+: cs ∨ ['}', '}'] <+: cs

/-- How a tile leads from one zone into another, with the text behind it. -/
inductive Move : Zone → Tile → List Char → Zone → Prop where
  | text {t : Tile} {rest : List Char} : t.token.kind = .text → t.gap = [] → t.span ≠ [] →
      ¬ HasDouble '{' t.span → ¬ ['{', '{'] <+: t.span ++ rest →
      rest = [] ∨ ['{', '{'] <+: rest → Move .text t rest .text
  | opener {t : Tile} {rest : List Char} : t.token.kind = .opener → t.gap = [] →
      t.span = ['{', '{', '-'] ∨ t.span = ['{', '{'] ∧ rest.head? ≠ some '-' →
      Move .text t rest (.opened t.token.position)
  | comment {t : Tile} {rest : List Char} {opener : Position} : t.token.kind = .comment →
      ¬ HasDouble '}' t.span →
      ['-', '}', '}'] <+: rest ∨ ['}', '}'] <+: rest ∧ t.span.getLast? ≠ some '-' →
      Move (.opened opener) t rest (.directive opener)
  | inner {zone : Zone} {t : Tile} {rest : List Char} {opener : Position} :
      zone = .opened opener ∨ zone = .directive opener → t.token.kind.isInner = true →
      ¬ BeginsCloser (t.span ++ rest) → t.span ≠ [] → t.span.getLast? ≠ some '-' →
      t.token.kind.LongestIn t.span (t.span ++ rest) → Move zone t rest (.directive opener)
  | closer {zone : Zone} {t : Tile} {rest : List Char} {opener : Position} :
      zone = .opened opener ∨ zone = .directive opener → t.token.kind = .closer →
      t.span = ['-', '}', '}'] ∨ t.span = ['}', '}'] → Move zone t rest .text

/-- The scan reads the tile at a cursor and goes on at another one. -/
structure Reading (zone : Zone) (c : Cursor) (t : Tile) (zone' : Zone) (c' : Cursor) : Prop where
  rest_eq : c.rest = t.chars ++ c'.rest
  token_at : t.token.position = c.position.advance t.gap
  behind_at : c'.position = c.position.advance t.chars
  blank : t.gap.all isBlank = true
  owns : t.token.Owns t.span
  move : Move zone t c'.rest zone'

theorem Cursor.behind_rest {c : Cursor} {lexeme : List Char} (h : lexeme <+: c.rest) :
    c.rest = lexeme ++ (c.behind lexeme).rest := by
  obtain ⟨rest, hrest⟩ := h
  rw [behind, ← hrest, List.drop_left]

theorem behind_append {p : Position} (lexeme rest : List Char) :
    Cursor.behind ⟨p, lexeme ++ rest⟩ lexeme = ⟨p.advance lexeme, rest⟩ := by
  simp [Cursor.behind]

theorem skipBlank_append {p : Position} {gap rest : List Char} (hgap : gap.all isBlank = true)
    (hrest : ∀ c ∈ rest.head?, isBlank c = false) :
    Cursor.skipBlank ⟨p, gap ++ rest⟩ = ⟨p.advance gap, rest⟩ := by
  have hblanks : (gap ++ rest).takeWhile isBlank = gap := by
    rw [List.takeWhile_append_of_pos (by simpa using hgap)]
    cases rest with
    | nil => simp
    | cons c rest => simp [hrest c rfl]
  rw [Cursor.skipBlank, Cursor.behind, hblanks, List.drop_left]

theorem Reading.of_lexeme {zone zone' : Zone} {c : Cursor} {lexeme : List Char} {t : Token}
    (hlexeme : lexeme <+: c.rest) (hposition : t.position = c.position) (howns : t.Owns lexeme)
    (hmove : Move zone ⟨[], t, lexeme⟩ (c.behind lexeme).rest zone') :
    Reading zone c ⟨[], t, lexeme⟩ zone' (c.behind lexeme) :=
  ⟨Cursor.behind_rest hlexeme, hposition, rfl, rfl, howns, hmove⟩

theorem Reading.of_lexeme_skipBlank {zone zone' : Zone} {c : Cursor} {lexeme : List Char}
    {t : Token} (hlexeme : lexeme <+: c.skipBlank.rest)
    (hposition : t.position = c.skipBlank.position) (howns : t.Owns lexeme)
    (hmove : Move zone ⟨c.rest.takeWhile isBlank, t, lexeme⟩ (c.skipBlank.behind lexeme).rest
      zone') :
    Reading zone c ⟨c.rest.takeWhile isBlank, t, lexeme⟩ zone' (c.skipBlank.behind lexeme) where
  rest_eq := by
    rw [Tile.chars, List.append_assoc, ← Cursor.behind_rest hlexeme]
    exact Cursor.behind_rest (List.takeWhile_prefix isBlank)
  token_at := hposition
  behind_at := (Position.advance_append c.position _ lexeme).symm
  blank := List.all_takeWhile
  owns := howns
  move := hmove

theorem ScanStep.spelled_eq_token {kind : TokenKind} {lexeme : List Char} {zone zone' : Zone}
    {c c' : Cursor} {t : Token} (h : spelled kind lexeme zone c = .token t zone' c') :
    t = ⟨kind, String.ofList lexeme, c.position⟩ ∧ zone' = zone ∧ c' = c.behind lexeme := by
  simp only [spelled, ScanStep.token.injEq] at h
  exact ⟨h.1.symm, h.2.1.symm, h.2.2.symm⟩

theorem Token.owns_spelled {kind : TokenKind} (lexeme : List Char) (position : Position)
    (hstring : kind ≠ .string) (hcomment : kind ≠ .comment) :
    Token.Owns ⟨kind, String.ofList lexeme, position⟩ lexeme := by
  cases kind <;> simp_all [Token.Owns]

theorem exists_reading_of_scanText {c c' : Cursor} {t : Token} {zone' : Zone}
    (h : scanText c = .token t zone' c') :
    ∃ tile : Tile, tile.token = t ∧ Reading .text c tile zone' c' := by
  unfold scanText at h
  split at h
  · cases h
  · rename_i rest hrest
    obtain ⟨rfl, rfl, rfl⟩ := ScanStep.spelled_eq_token h
    refine ⟨⟨[], _, ['{', '{', '-']⟩, rfl, .of_lexeme ⟨rest, hrest.symm⟩ rfl ?_ ?_⟩
    · exact Token.owns_spelled _ _ (by simp) (by simp)
    · exact .opener rfl rfl (.inl rfl)
  · rename_i rest hnodash hrest
    obtain ⟨rfl, rfl, rfl⟩ := ScanStep.spelled_eq_token h
    have hlexeme : ['{', '{'] <+: c.rest := ⟨rest, hrest.symm⟩
    refine ⟨⟨[], _, ['{', '{']⟩, rfl, .of_lexeme hlexeme rfl ?_ ?_⟩
    · exact Token.owns_spelled _ _ (by simp) (by simp)
    · refine .opener rfl rfl (.inr ⟨rfl, ?_⟩)
      have hbehind := Cursor.behind_rest hlexeme
      rw [hrest] at hbehind
      intro hhead
      obtain ⟨tail, htail⟩ := List.head?_eq_some_iff.mp hhead
      rw [htail] at hbehind
      exact hnodash tail (by simpa using hbehind)
  · rename_i hne hdash hopen
    obtain ⟨rfl, rfl, rfl⟩ := ScanStep.spelled_eq_token h
    have happend := splitDouble_append '{' c.rest
    have hlexeme : (splitDouble '{' c.rest).1 <+: c.rest := ⟨_, happend⟩
    have hopening : ¬ ['{', '{'] <+: c.rest := fun ⟨tail, htail⟩ => hopen tail htail.symm
    have hbehind := Cursor.behind_rest hlexeme
    have hrest : (c.behind (splitDouble '{' c.rest).1).rest = (splitDouble '{' c.rest).2 :=
      List.append_cancel_left (hbehind.symm.trans happend.symm)
    refine ⟨⟨[], _, (splitDouble '{' c.rest).1⟩, rfl, .of_lexeme hlexeme rfl ?_ ?_⟩
    · exact Token.owns_spelled _ _ (by simp) (by simp)
    · refine .text rfl rfl ?_ (not_hasDouble_splitDouble '{' c.rest) ?_ ?_
      · exact splitDouble_ne_nil hne hopening
      · rw [← hbehind]
        exact hopening
      · rw [hrest]
        exact splitDouble_rest '{' c.rest

/-- The cursor stands in the directive, with or without a token of it read. -/
def Zone.Inside (zone : Zone) (opener : Position) : Prop :=
  zone = .opened opener ∨ zone = .directive opener

theorem IsWordTail.getLast?_ne_dash {w : List Char} (h : IsWordTail w) : w.getLast? ≠ some '-' := by
  induction h with
  | nil => simp
  | @char c w hc _ ih =>
    cases w with
    | nil =>
      simp only [List.getLast?_singleton, ne_eq, Option.some.injEq]
      rintro rfl
      simp [not_isWordChar_dash] at hc
    | cons d w => simpa using ih
  | @dash c w hc _ ih =>
    cases w with
    | nil =>
      simp only [List.getLast?_cons_cons, List.getLast?_singleton, ne_eq, Option.some.injEq]
      rintro rfl
      simp [not_isWordChar_dash] at hc
    | cons d w => simpa using ih

theorem isWordChar_of_isWordStart {c : Char} (h : isWordStart c = true) : isWordChar c = true := by
  simp only [isWordStart, isWordChar, Char.isAlphanum, Bool.or_eq_true] at h ⊢
  rcases h with h | h
  · exact .inl (.inl h)
  · exact .inr h

theorem IsIdentifier.getLast?_ne_dash {w : List Char} (h : IsIdentifier w) :
    w.getLast? ≠ some '-' := by
  cases w with
  | nil => simp
  | cons c w =>
    obtain ⟨hc, hw⟩ := isIdentifier_cons_iff.mp h
    exact (IsWordTail.char (isWordChar_of_isWordStart hc) hw).getLast?_ne_dash

theorem IsInteger.getLast?_ne_dash {w : List Char} (h : IsInteger w) : w.getLast? ≠ some '-' := by
  intro hlast
  have hdigit := List.all_eq_true.mp h.2 _ (List.mem_of_getLast? hlast)
  simp at hdigit

theorem StringBody.getLast? {quote : Char} {value raw : List Char}
    (h : StringBody quote value raw) : raw.getLast? = some quote := by
  induction h with
  | close => rfl
  | @pair _ raw c _ ih =>
    cases raw with
    | nil => simp at ih
    | cons d raw => simpa using ih
  | @char _ raw c _ _ _ ih =>
    cases raw with
    | nil => simp at ih
    | cons d raw => simpa using ih

theorem wordKind_eq (word : List Char) :
    wordKind word = .identifier ∧ Keyword.ofWord? (String.ofList word) = none ∨
      ∃ k, wordKind word = .keyword k ∧ Keyword.ofWord? (String.ofList word) = some k := by
  cases h : Keyword.ofWord? (String.ofList word) with
  | none => exact .inl ⟨by simp [wordKind, h], rfl⟩
  | some k => exact .inr ⟨k, by simp [wordKind, h], rfl⟩

theorem exists_reading_of_scanWord {c c' : Cursor} {t : Token} {zone zone' : Zone}
    {opener : Position} {first : Char} (hzone : zone.Inside opener)
    (hcloser : ¬ BeginsCloser c.skipBlank.rest)
    (h : scanWord opener c.skipBlank first = .token t zone' c') :
    ∃ tile : Tile, tile.token = t ∧ Reading zone c tile zone' c' := by
  unfold scanWord at h
  split at h
  · rename_i digits hdigits
    obtain ⟨rfl, rfl, rfl⟩ := ScanStep.spelled_eq_token h
    have hlongest := isLongest_of_integer? hdigits
    refine ⟨⟨_, _, digits⟩, rfl, .of_lexeme_skipBlank hlongest.isPrefix rfl ?_ ?_⟩
    · exact Token.owns_spelled _ _ (by simp) (by simp)
    · refine .inner hzone rfl ?_ hlongest.shaped.1 hlongest.shaped.getLast?_ne_dash ?_
      · rwa [← Cursor.behind_rest hlongest.isPrefix]
      · rw [← Cursor.behind_rest hlongest.isPrefix]
        exact hlongest
  · rename_i word _ hword
    obtain ⟨rfl, rfl, rfl⟩ := ScanStep.spelled_eq_token h
    have hlongest := isLongest_of_identifier? hword
    refine ⟨⟨_, _, word⟩, rfl, .of_lexeme_skipBlank hlongest.isPrefix rfl ?_ ?_⟩
    · rcases wordKind_eq word with ⟨hkind, -⟩ | ⟨k, hkind, -⟩ <;> rw [hkind] <;>
        exact Token.owns_spelled _ _ (by simp) (by simp)
    · rcases wordKind_eq word with ⟨hkind, hkeyword⟩ | ⟨k, hkind, hkeyword⟩
      · refine .inner hzone (by rw [hkind]; rfl) ?_ hlongest.shaped.ne_nil
          hlongest.shaped.getLast?_ne_dash ?_
        · rwa [← Cursor.behind_rest hlongest.isPrefix]
        · rw [← Cursor.behind_rest hlongest.isPrefix]
          simp only [hkind]
          exact ⟨hlongest, hkeyword⟩
      · refine .inner hzone (by rw [hkind]; rfl) ?_ hlongest.shaped.ne_nil
          hlongest.shaped.getLast?_ne_dash ?_
        · rwa [← Cursor.behind_rest hlongest.isPrefix]
        · rw [← Cursor.behind_rest hlongest.isPrefix]
          simp only [hkind]
          exact ⟨hlongest, hkeyword⟩
  · cases h

theorem exists_reading_of_scanString {c c' : Cursor} {t : Token} {zone zone' : Zone}
    {opener : Position} {quote : Char} {rest : List Char} (hzone : zone.Inside opener)
    (hcloser : ¬ BeginsCloser c.skipBlank.rest) (hquote : isQuote quote = true)
    (hrest : c.skipBlank.rest = quote :: rest)
    (h : scanString opener c.skipBlank quote rest = .token t zone' c') :
    ∃ tile : Tile, tile.token = t ∧ Reading zone c tile zone' c' := by
  unfold scanString at h
  split at h
  · cases h
  · rename_i value raw hbody
    simp only [ScanStep.token.injEq] at h
    obtain ⟨rfl, rfl, rfl⟩ := h
    have hlexeme : quote :: raw <+: c.skipBlank.rest := by
      rw [hrest]
      exact List.cons_prefix_cons.mpr ⟨rfl, stringBody?_isPrefix hbody⟩
    have hstring := StringBody.of_stringBody? hbody
    refine ⟨⟨_, _, quote :: raw⟩, rfl, .of_lexeme_skipBlank hlexeme rfl ?_ ?_⟩
    · exact ⟨quote, raw, rfl, hquote, by simpa using hstring⟩
    · refine .inner hzone rfl (by rwa [← Cursor.behind_rest hlexeme]) (by simp) ?_ trivial
      have hlast : (quote :: raw).getLast? = some quote := by
        rw [List.getLast?_cons, hstring.getLast?, Option.getD_some]
      rw [hlast]
      rintro ⟨⟩
      simp [isQuote] at hquote

theorem mem_of_symbolKind? {c : Char} {kind : TokenKind} (h : symbolKind? c = some kind) :
    (c, kind) ∈ [('.', TokenKind.dot), ('|', .pipe), (',', .comma), ('=', .equals),
      ('@', .atSign)] := by
  unfold symbolKind? at h
  split at h <;> simp_all

theorem exists_reading_of_scanDirective {c c' : Cursor} {t : Token} {zone zone' : Zone}
    {opener : Position} (hzone : zone.Inside opener)
    (h : scanDirective opener c.skipBlank = .token t zone' c') :
    ∃ tile : Tile, tile.token = t ∧ Reading zone c tile zone' c' := by
  unfold scanDirective at h
  split at h
  · cases h
  · rename_i rest hrest
    obtain ⟨rfl, rfl, rfl⟩ := ScanStep.spelled_eq_token h
    refine ⟨⟨_, _, ['-', '}', '}']⟩, rfl, .of_lexeme_skipBlank ⟨rest, hrest.symm⟩ rfl ?_ ?_⟩
    · exact Token.owns_spelled _ _ (by simp) (by simp)
    · exact .closer hzone rfl (.inl rfl)
  · rename_i rest hrest
    obtain ⟨rfl, rfl, rfl⟩ := ScanStep.spelled_eq_token h
    refine ⟨⟨_, _, ['}', '}']⟩, rfl, .of_lexeme_skipBlank ⟨rest, hrest.symm⟩ rfl ?_ ?_⟩
    · exact Token.owns_spelled _ _ (by simp) (by simp)
    · exact .closer hzone rfl (.inr rfl)
  · rename_i first rest hdash hbraces hrest
    have hcloser : ¬ BeginsCloser c.skipBlank.rest := by
      rintro (⟨tail, htail⟩ | ⟨tail, htail⟩)
      · obtain ⟨hfirst, htail⟩ := List.cons.inj (htail.trans hrest)
        exact hdash tail hfirst.symm htail.symm
      · obtain ⟨hfirst, htail⟩ := List.cons.inj (htail.trans hrest)
        exact hbraces tail hfirst.symm htail.symm
    split at h
    · rename_i kind hkind
      obtain ⟨rfl, rfl, rfl⟩ := ScanStep.spelled_eq_token h
      have hlexeme : [first] <+: c.skipBlank.rest := ⟨rest, hrest.symm⟩
      refine ⟨⟨_, _, [first]⟩, rfl, .of_lexeme_skipBlank hlexeme rfl ?_ ?_⟩
      · have hmem := mem_of_symbolKind? hkind
        exact Token.owns_spelled _ _ (by rintro rfl; simp at hmem) (by rintro rfl; simp at hmem)
      · have hmem := mem_of_symbolKind? hkind
        refine .inner hzone ?_ (by rwa [← Cursor.behind_rest hlexeme]) (by simp) ?_ ?_
        · cases kind <;> simp_all [TokenKind.isInner]
        · simp only [List.getLast?_singleton, ne_eq, Option.some.injEq]
          rintro rfl
          simp at hmem
        · cases kind <;> simp_all [TokenKind.LongestIn]
    · by_cases hquote : isQuote first = true
      · rw [if_pos hquote] at h
        exact exists_reading_of_scanString hzone hcloser hquote hrest h
      · rw [if_neg hquote] at h
        exact exists_reading_of_scanWord hzone hcloser h

theorem commentLexeme?_eq_some {rest lexeme : List Char} (hash : rest.head? = some '#')
    (h : commentLexeme? rest = some lexeme) :
    ∃ body tail, lexeme = '#' :: body ∧ rest = lexeme ++ tail ∧ ¬ HasDouble '}' lexeme ∧
      (['-', '}', '}'] <+: tail ∨ ['}', '}'] <+: tail ∧ lexeme.getLast? ≠ some '-') := by
  have happend := splitDouble_append '}' rest
  have hdouble := not_hasDouble_splitDouble '}' rest
  have hrest := splitDouble_rest '}' rest
  unfold commentLexeme? at h
  split at h
  · cases h
  · rename_i body mark tail hsplit
    rw [hsplit] at happend hdouble hrest
    have hbraces : ['}', '}'] <+: mark :: tail := by simpa using hrest
    have hbody : ∃ more, body = '#' :: more := by
      cases body with
      | nil =>
        rw [List.nil_append] at happend
        rw [← happend] at hash
        obtain ⟨more, hmore⟩ := hbraces
        obtain ⟨rfl, -⟩ := List.cons.inj hmore
        simp at hash
      | cons c more =>
        rw [← happend] at hash
        obtain rfl : c = '#' := by simpa using hash
        exact ⟨more, rfl⟩
    obtain ⟨more, rfl⟩ := hbody
    simp only [Option.some.injEq] at h
    by_cases hdash : ('#' :: more).getLast? = some '-'
    · rw [if_pos hdash] at h
      obtain ⟨front, hfront⟩ := List.getLast?_eq_some_iff.mp hdash
      rw [hfront, List.dropLast_concat] at h
      subst h
      cases front with
      | nil => simp at hfront
      | cons c front =>
        obtain ⟨rfl, rfl⟩ := List.cons.inj hfront
        refine ⟨front, '-' :: mark :: tail, rfl, ?_, ?_, .inl ?_⟩
        · rw [← happend]
          simp
        · intro hwithin
          exact hdouble (hwithin.trans (List.prefix_append ('#' :: front) ['-']).isInfix)
        · exact List.cons_prefix_cons.mpr ⟨rfl, hbraces⟩
    · rw [if_neg hdash] at h
      subst h
      exact ⟨more, mark :: tail, rfl, happend.symm, hdouble, .inr ⟨hbraces, hdash⟩⟩

theorem exists_reading_of_scanComment {c c' : Cursor} {t : Token} {zone' : Zone}
    {opener : Position} (hash : c.skipBlank.rest.head? = some '#')
    (h : scanComment opener c.skipBlank = .token t zone' c') :
    ∃ tile : Tile, tile.token = t ∧ Reading (.opened opener) c tile zone' c' := by
  unfold scanComment at h
  split at h
  · cases h
  · rename_i lexeme hlexeme
    simp only [ScanStep.token.injEq] at h
    obtain ⟨rfl, rfl, rfl⟩ := h
    obtain ⟨body, tail, rfl, hrest, hdouble, htail⟩ := commentLexeme?_eq_some hash hlexeme
    have hisPrefix : '#' :: body <+: c.skipBlank.rest := ⟨tail, hrest.symm⟩
    refine ⟨⟨_, _, '#' :: body⟩, rfl, .of_lexeme_skipBlank hisPrefix rfl ⟨body, rfl, rfl⟩ ?_⟩
    refine .comment rfl hdouble ?_
    have hbehind : (c.skipBlank.behind ('#' :: body)).rest = tail :=
      List.append_cancel_left ((Cursor.behind_rest hisPrefix).symm.trans hrest)
    rw [hbehind]
    exact htail

/-- Every step of the scan that yields a token takes a tile off the front of the text. -/
theorem exists_reading_of_scanStep {c c' : Cursor} {t : Token} {zone zone' : Zone}
    (h : scanStep zone c = .token t zone' c') :
    ∃ tile : Tile, tile.token = t ∧ Reading zone c tile zone' c' := by
  cases zone with
  | text => exact exists_reading_of_scanText h
  | opened opener =>
    simp only [scanStep] at h
    split at h
    · rename_i hash
      exact exists_reading_of_scanComment hash h
    · exact exists_reading_of_scanDirective (.inl rfl) h
  | directive opener => exact exists_reading_of_scanDirective (.inr rfl) h

/-- The tiles that the scan reads from a cursor up to the end of the input. -/
inductive Tiled : Zone → Cursor → List Tile → Prop where
  | finish (position : Position) : Tiled .text ⟨position, []⟩ [⟨[], .endAt position, []⟩]
  | read {zone zone' : Zone} {c c' : Cursor} {t : Tile} {tiles : List Tile} :
      Reading zone c t zone' c' → Tiled zone' c' tiles → Tiled zone c (t :: tiles)

theorem ScanStep.spelled_ne_finished {kind : TokenKind} {lexeme : List Char} {zone : Zone}
    {c : Cursor} {t : Token} : spelled kind lexeme zone c ≠ .finished t := by
  simp [spelled]

theorem scanDirective_ne_finished (opener : Position) (c : Cursor) (t : Token) :
    scanDirective opener c ≠ .finished t := by
  unfold scanDirective
  split
  · simp [ScanStep.failure]
  · exact ScanStep.spelled_ne_finished
  · exact ScanStep.spelled_ne_finished
  · split
    · exact ScanStep.spelled_ne_finished
    · split
      · unfold scanString
        split <;> simp [ScanStep.failure]
      · unfold scanWord
        split <;> simp [ScanStep.failure, ScanStep.spelled]

theorem scanStep_eq_finished {c : Cursor} {t : Token} {zone : Zone}
    (h : scanStep zone c = .finished t) : zone = .text ∧ c.rest = [] ∧ t = .endAt c.position := by
  cases zone with
  | text =>
    simp only [scanStep] at h
    unfold scanText at h
    split at h
    · rename_i hrest
      simp only [ScanStep.finished.injEq] at h
      exact ⟨rfl, hrest, h.symm⟩
    all_goals exact absurd h ScanStep.spelled_ne_finished
  | opened opener =>
    simp only [scanStep] at h
    split at h
    · unfold scanComment at h
      split at h <;> simp [ScanStep.failure] at h
    · exact absurd h (scanDirective_ne_finished _ _ _)
  | directive opener => exact absurd h (scanDirective_ne_finished _ _ _)

theorem scanFrom_of_token {zone zone' : Zone} {c c' : Cursor} {t : Token}
    (h : scanStep zone c = .token t zone' c') : scanFrom zone c = (scanFrom zone' c').cons t := by
  rw [scanFrom]
  split <;> simp_all

theorem scanFrom_of_finished {zone : Zone} {c : Cursor} {t : Token}
    (h : scanStep zone c = .finished t) : scanFrom zone c = ⟨[t], none⟩ := by
  rw [scanFrom]
  split <;> simp_all

theorem scanFrom_congr {zone zone' : Zone} {c c' : Cursor}
    (h : scanStep zone c = scanStep zone' c') : scanFrom zone c = scanFrom zone' c' := by
  rw [scanFrom, scanFrom]
  split <;> split <;> simp_all

theorem exists_tiled_of_scanFrom {zone : Zone} {c : Cursor}
    (h : (scanFrom zone c).failure = none) :
    ∃ tiles, (scanFrom zone c).tokens = tiles.map Tile.token ∧ Tiled zone c tiles := by
  fun_induction scanFrom zone c with
  | case1 zone c t ht =>
    obtain ⟨rfl, hrest, rfl⟩ := scanStep_eq_finished ht
    obtain ⟨position, rest⟩ := c
    dsimp only at hrest
    subst hrest
    exact ⟨_, rfl, .finish position⟩
  | case2 zone c e he => simp at h
  | case3 zone c t zone' c' ht ih =>
    obtain ⟨tiles, htokens, htiled⟩ := ih h
    obtain ⟨tile, rfl, hreading⟩ := exists_reading_of_scanStep ht
    exact ⟨tile :: tiles, by simp [Scanned.cons, htokens], .read hreading htiled⟩

end TextTemplate
