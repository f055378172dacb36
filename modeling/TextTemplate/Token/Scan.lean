import TextTemplate.CompileError
import TextTemplate.Text.CharClass
import TextTemplate.Token.Lexeme

/-! Reading a text as tokens, one at a time from left to right. Every step but the last consumes
characters, so reading ends; it ends with the end of the input or at the first fault. -/

namespace TextTemplate

/-- Where the next token starts, and the characters from there on. -/
structure Cursor where
  position : Position
  rest : List Char
  deriving DecidableEq

namespace Cursor

def ofText (text : String) : Cursor := ⟨.start, text.toList⟩

/-- The cursor behind `lexeme`, which the remaining characters begin with. -/
def behind (c : Cursor) (lexeme : List Char) : Cursor :=
  ⟨c.position.advance lexeme, c.rest.drop lexeme.length⟩

def skipBlank (c : Cursor) : Cursor :=
  c.behind (c.rest.takeWhile isBlank)

theorem behind_length_lt {c : Cursor} {lexeme : List Char} (hne : lexeme ≠ [])
    (hrest : c.rest ≠ []) : (c.behind lexeme).rest.length < c.rest.length := by
  have h1 := List.length_pos_iff.2 hne
  have h2 := List.length_pos_iff.2 hrest
  simp only [behind, List.length_drop]
  omega

theorem skipBlank_length_le (c : Cursor) : c.skipBlank.rest.length ≤ c.rest.length := by
  simp [skipBlank, behind]

end Cursor

/-- What surrounds the cursor: plain text, a directive just opened, or the inside of one. A
directive is known by the place of its opener. -/
inductive Zone where
  | text
  | opened (opener : Position)
  | directive (opener : Position)
  deriving DecidableEq

inductive ScanStep where
  | token (token : Token) (zone : Zone) (cursor : Cursor)
  | finished (token : Token)
  | failed (error : LexError)
  deriving DecidableEq

namespace ScanStep

def spelled (kind : TokenKind) (lexeme : List Char) (zone : Zone) (c : Cursor) : ScanStep :=
  token ⟨kind, String.ofList lexeme, c.position⟩ zone (c.behind lexeme)

def failure (fault : LexFault) (position : Position) : ScanStep :=
  failed ⟨fault, position⟩

end ScanStep

def scanText (c : Cursor) : ScanStep :=
  match c.rest with
  | [] => .finished (.endAt c.position)
  | '{' :: '{' :: '-' :: _ => .spelled .opener ['{', '{', '-'] (.opened c.position) c
  | '{' :: '{' :: _ => .spelled .opener ['{', '{'] (.opened c.position) c
  | rest => .spelled .text (splitDouble '{' rest).1 .text c

def scanString (opener : Position) (c : Cursor) (quote : Char) (rest : List Char) : ScanStep :=
  match stringBody? quote rest with
  | none => .failure .unterminatedString c.position
  | some (value, raw) =>
    .token ⟨.string, String.ofList value, c.position⟩ (.directive opener)
      (c.behind (quote :: raw))

def wordKind (word : List Char) : TokenKind :=
  ((Keyword.ofWord? (String.ofList word)).map .keyword).getD .identifier

def scanWord (opener : Position) (c : Cursor) (first : Char) : ScanStep :=
  match integer? c.rest, identifier? c.rest with
  | some digits, _ => .spelled .integer digits (.directive opener) c
  | none, some word => .spelled (wordKind word) word (.directive opener) c
  | none, none => .failure (.unexpectedCharacter first) c.position

/-- A closer is looked for before anything else that starts with its characters. -/
def scanDirective (opener : Position) (c : Cursor) : ScanStep :=
  match c.rest with
  | [] => .failure .unterminatedDirective opener
  | '-' :: '}' :: '}' :: _ => .spelled .closer ['-', '}', '}'] .text c
  | '}' :: '}' :: _ => .spelled .closer ['}', '}'] .text c
  | first :: rest =>
    match symbolKind? first with
    | some kind => .spelled kind [first] (.directive opener) c
    | none =>
      if isQuote first then scanString opener c first rest else scanWord opener c first

/-- The characters of a comment from its hash sign up to its closer. A dash right before the
closing braces belongs to the closer. -/
def commentLexeme? (rest : List Char) : Option (List Char) :=
  match splitDouble '}' rest with
  | (_, []) => none
  | (body, _ :: _) => some (if body.getLast? = some '-' then body.dropLast else body)

def scanComment (opener : Position) (c : Cursor) : ScanStep :=
  match commentLexeme? c.rest with
  | none => .failure .unterminatedComment opener
  | some lexeme =>
    .token ⟨.comment, trim (String.ofList (lexeme.drop 1)), c.position⟩ (.directive opener)
      (c.behind lexeme)

def scanStep : Zone → Cursor → ScanStep
  | .text, c => scanText c
  | .opened opener, c =>
    if c.skipBlank.rest.head? = some '#' then scanComment opener c.skipBlank
    else scanDirective opener c.skipBlank
  | .directive opener, c => scanDirective opener c.skipBlank

theorem ScanStep.spelled_shorter {kind : TokenKind} {lexeme : List Char} {zone zone' : Zone}
    {c c' : Cursor} {t : Token} (hne : lexeme ≠ []) (hrest : c.rest ≠ [])
    (h : spelled kind lexeme zone c = .token t zone' c') : c'.rest.length < c.rest.length := by
  simp only [spelled, ScanStep.token.injEq] at h
  obtain ⟨-, -, rfl⟩ := h
  exact Cursor.behind_length_lt hne hrest

theorem scanText_shorter {c c' : Cursor} {t : Token} {zone : Zone}
    (h : scanText c = .token t zone c') : c'.rest.length < c.rest.length := by
  unfold scanText at h
  split at h
  · cases h
  · exact ScanStep.spelled_shorter (by simp) (by simp_all) h
  · exact ScanStep.spelled_shorter (by simp) (by simp_all) h
  · rename_i rest h0 _ h2
    refine ScanStep.spelled_shorter ?_ h0 h
    match hr : c.rest with
    | [] => exact absurd hr h0
    | [d] => simp [splitDouble]
    | d :: e :: tail =>
      have : ¬(d = '{' ∧ e = '{') := fun ⟨hd, he⟩ => h2 tail (by rw [hr, hd, he])
      simp [splitDouble, this]

theorem scanString_shorter {opener : Position} {quote : Char} {rest : List Char} {c c' : Cursor}
    {t : Token} {zone : Zone} (hrest : c.rest ≠ [])
    (h : scanString opener c quote rest = .token t zone c') :
    c'.rest.length < c.rest.length := by
  unfold scanString at h
  split at h
  · cases h
  · simp only [ScanStep.token.injEq] at h
    obtain ⟨-, -, rfl⟩ := h
    exact Cursor.behind_length_lt (by simp) hrest

theorem integer?_ne_nil {cs digits : List Char} (h : integer? cs = some digits) :
    digits ≠ [] := by
  cases cs with
  | nil => simp [integer?] at h
  | cons c rest => simp only [integer?] at h; split at h <;> simp_all; simp [← h]

theorem identifier?_ne_nil {cs word : List Char} (h : identifier? cs = some word) :
    word ≠ [] := by
  cases cs with
  | nil => simp [identifier?] at h
  | cons c rest => simp only [identifier?] at h; split at h <;> simp_all; simp [← h]

theorem scanWord_shorter {opener : Position} {first : Char} {c c' : Cursor} {t : Token}
    {zone : Zone} (hrest : c.rest ≠ []) (h : scanWord opener c first = .token t zone c') :
    c'.rest.length < c.rest.length := by
  unfold scanWord at h
  split at h
  · exact ScanStep.spelled_shorter (integer?_ne_nil (by assumption)) hrest h
  · exact ScanStep.spelled_shorter (identifier?_ne_nil (by assumption)) hrest h
  · cases h

theorem scanDirective_shorter {opener : Position} {c c' : Cursor} {t : Token} {zone : Zone}
    (h : scanDirective opener c = .token t zone c') : c'.rest.length < c.rest.length := by
  unfold scanDirective at h
  split at h
  · cases h
  · exact ScanStep.spelled_shorter (by simp) (by simp_all) h
  · exact ScanStep.spelled_shorter (by simp) (by simp_all) h
  · rename_i hr
    split at h
    · exact ScanStep.spelled_shorter (by simp) (by simp_all) h
    · split at h
      · exact scanString_shorter (by simp_all) h
      · exact scanWord_shorter (by simp_all) h

theorem scanComment_shorter {opener : Position} {c c' : Cursor} {t : Token} {zone : Zone}
    (hash : c.rest.head? = some '#') (h : scanComment opener c = .token t zone c') :
    c'.rest.length < c.rest.length := by
  unfold scanComment at h
  split at h
  · cases h
  · rename_i lexeme hl
    simp only [ScanStep.token.injEq] at h
    obtain ⟨-, -, rfl⟩ := h
    refine Cursor.behind_length_lt ?_ (by rintro hn; simp [hn] at hash)
    match hr : c.rest with
    | [] => simp [hr] at hash
    | [d] => simp [hr, commentLexeme?, splitDouble] at hl
    | d :: e :: tail =>
      have hd : d = '#' := by simpa [hr] using hash
      subst hd
      simp only [commentLexeme?, hr, splitDouble] at hl
      split at hl
      · cases hl
      · rename_i body b bs hb
        simp at hb
        obtain ⟨rfl, -⟩ := hb
        simp only [Option.some.injEq] at hl
        subst hl
        split
        · rename_i hlast
          cases hs : (splitDouble '}' (e :: tail)).1 with
          | nil => simp [hs] at hlast
          | cons x xs => simp
        · simp

theorem scanStep_shorter {zone zone' : Zone} {c c' : Cursor} {t : Token}
    (h : scanStep zone c = .token t zone' c') : c'.rest.length < c.rest.length := by
  have hskip := c.skipBlank_length_le
  cases zone with
  | text => exact scanText_shorter h
  | opened opener =>
    simp only [scanStep] at h
    split at h
    · exact Nat.lt_of_lt_of_le (scanComment_shorter (by assumption) h) hskip
    · exact Nat.lt_of_lt_of_le (scanDirective_shorter h) hskip
  | directive opener => exact Nat.lt_of_lt_of_le (scanDirective_shorter h) hskip

/-- The tokens of a text up to its end, or up to the fault that stopped the reading. -/
structure Scanned where
  tokens : List Token
  failure : Option LexError
  deriving DecidableEq

namespace Scanned

def cons (t : Token) (s : Scanned) : Scanned :=
  { s with tokens := t :: s.tokens }

def toExcept (s : Scanned) : Except LexError (List Token) :=
  match s.failure with
  | none => .ok s.tokens
  | some e => .error e

end Scanned

def scanFrom (zone : Zone) (c : Cursor) : Scanned :=
  match _h : scanStep zone c with
  | .finished t => ⟨[t], none⟩
  | .failed e => ⟨[], some e⟩
  | .token t zone' c' => (scanFrom zone' c').cons t
termination_by c.rest.length
decreasing_by exact scanStep_shorter _h

def scan (text : String) : Scanned :=
  scanFrom .text (Cursor.ofText text)

end TextTemplate
