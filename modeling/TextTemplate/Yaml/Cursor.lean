/-! Places in a YAML document, and the gaps of blanks, comments and line breaks between its
parts. -/

namespace TextTemplate.Yaml

/-- A place in a document, all counted from 0. -/
structure Place where
  index : Nat
  line : Nat
  column : Nat

namespace Place

def start : Place := ⟨0, 0, 0⟩

/-- The place behind `c`. Only a line feed begins a new line, and a byte order mark has no
width. -/
def next (p : Place) (c : Char) : Place :=
  if c = '\n' then ⟨p.index + 1, p.line + 1, 0⟩
  else if c = '\uFEFF' then ⟨p.index + 1, p.line, p.column⟩
  else ⟨p.index + 1, p.line, p.column + 1⟩

end Place

/-- The characters that are left, and the place where they start. -/
structure Cursor where
  rest : List Char
  place : Place

namespace Cursor

def start (text : List Char) : Cursor := ⟨text, .start⟩

/-- The cursor behind `lexeme`, which the remaining characters begin with. -/
def behind (c : Cursor) (lexeme : List Char) : Cursor :=
  ⟨c.rest.drop lexeme.length, lexeme.foldl Place.next c.place⟩

def skipSpaces (c : Cursor) : Cursor :=
  c.behind (c.rest.takeWhile (· == ' '))

end Cursor

def isGap (c : Char) : Bool :=
  c == ' ' || c == '\t'

/-- Characters that end a line everywhere. -/
def endsLine (c : Char) : Bool :=
  c == '\n' || c == '\u0085'

/-- Characters that break lines. The separators of lines and paragraphs do so in gaps only. -/
def isBreak (c : Char) : Bool :=
  endsLine c || c == '\u2028' || c == '\u2029'

def breakText (c : Char) : Char :=
  if endsLine c then '\n' else c

/-- Whether a mark in front of these characters ends there. -/
def atBoundary : List Char → Bool
  | [] => true
  | c :: _ => isGap c || endsLine c

/-- Whether these characters begin with three dashes or dots that stand alone. -/
def isMarker : List Char → Bool
  | '-' :: '-' :: '-' :: rest => atBoundary rest
  | '.' :: '.' :: '.' :: rest => atBoundary rest
  | _ => false

namespace Cursor

/-- Whether a line begins here that separates documents. -/
def atMarker (c : Cursor) : Bool :=
  c.place.column == 0 && isMarker c.rest

end Cursor

/-- Skips blanks, breaks and comments, and says whether a line has ended. Tabs are blanks only
inside brackets. -/
def gapFrom (inBrackets inComment broken : Bool) (p : Place) : List Char → Bool × Cursor
  | [] => (broken, ⟨[], p⟩)
  | c :: rest =>
    if inComment && !endsLine c then gapFrom inBrackets true broken (p.next c) rest
    else if isBreak c then gapFrom inBrackets false true (p.next c) rest
    else if c == ' ' || (inBrackets && c == '\t') then
      gapFrom inBrackets false broken (p.next c) rest
    else if c == '#' then gapFrom inBrackets true broken (p.next c) rest
    else (broken, ⟨c :: rest, p⟩)

namespace Cursor

def skipGap (c : Cursor) (inBrackets : Bool) : Bool × Cursor :=
  gapFrom inBrackets false false c.place c.rest

end Cursor

end TextTemplate.Yaml
