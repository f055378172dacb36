import TextTemplate.Yaml.Cursor

/-! Plain scalars: text without quotes, over one line or several. -/

namespace TextTemplate.Yaml

def isBracketMark (c : Char) : Bool :=
  c == ',' || c == '[' || c == ']' || c == '{' || c == '}'

def isIndicator (c : Char) : Bool :=
  isBracketMark c || "#&*!|>'\"%@".toList.contains c || c.toNat == 0x60

def startsPlain (inBrackets : Bool) : List Char → Bool
  | [] => false
  | c :: rest =>
    if c = '-' then !atBoundary rest
    else if c = '?' then !inBrackets && !atBoundary rest
    else if c = ':' then if inBrackets then !rest.head?.any isGap else !atBoundary rest
    else !isIndicator c && !isGap c && !isBreak c

/-- Whether a word of plain text has `c` in it, with `rest` behind. A colon before a boundary is
not part of a word. -/
def inWord (inBrackets : Bool) (c : Char) (rest : List Char) : Bool :=
  if c = ':' then !atBoundary rest
  else !atBoundary [c] && !(inBrackets && isBracketMark c)

/-- What lies between the last word and the place that is being read: nothing, some spaces, or the
break that ended the line and those behind it, latest first. -/
inductive WordGap where
  | none
  | spaces (count : Nat)
  | lines (first : Char) (others : List Char)

namespace WordGap

/-- What stands for the gap in the text, in reverse. A single line feed is a space. -/
def reversed : WordGap → List Char
  | none => []
  | spaces count => List.replicate count ' '
  | lines first others =>
    if first ≠ '\n' then others ++ [first] else if others.isEmpty then [' '] else others

def isBroken : WordGap → Bool
  | lines .. => true
  | _ => false

end WordGap

/-- A scalar and the cursor behind it. A key may follow if the reading ended in a new line. -/
structure PlainText where
  text : String
  keyAllowed : Bool
  cursor : Cursor

/-- The plain text whose part in `done`, in reverse, has been read. Outside of brackets the lines
behind the first reach the column `indent`. -/
def plainFrom (inBrackets : Bool) (indent : Int) (done : List Char) (gap : WordGap) (p : Place) :
    List Char → PlainText
  | [] => ⟨String.ofList done.reverse, gap.isBroken, ⟨[], p⟩⟩
  | c :: rest =>
    let stopped (keyAllowed : Bool) (cursor : Cursor) : PlainText :=
      ⟨String.ofList done.reverse, keyAllowed, cursor⟩
    let atWord :=
      match gap with
      | .none => inWord inBrackets c rest
      | _ => inWord inBrackets c rest && c != '#' && !isBreak c &&
          (inBrackets || indent ≤ p.column)
    if atWord then plainFrom inBrackets indent (c :: gap.reversed ++ done) .none (p.next c) rest
    else if isBreak c then
      if isMarker rest then stopped true ⟨rest, p.next c⟩
      else
        let gap :=
          match gap with
          | .lines first others => .lines first (breakText c :: others)
          | _ => .lines (breakText c) []
        plainFrom inBrackets indent done gap (p.next c) rest
    else if c = ' ' then
      let gap :=
        match gap with
        | .none => .spaces 1
        | .spaces count => .spaces (count + 1)
        | gap => gap
      plainFrom inBrackets indent done gap (p.next c) rest
    else stopped gap.isBroken ⟨c :: rest, p⟩

def readPlain (inBrackets : Bool) (indent : Int) (c : Cursor) : PlainText :=
  plainFrom inBrackets indent [] .none c.place c.rest

end TextTemplate.Yaml
