import TextTemplate.Yaml.Cursor

/-! Block scalars: the indented lines behind a `|`, which keep their breaks, or behind a `>`, which
are folded. -/

namespace TextTemplate.Yaml

/-- What happens to the breaks at the end: one is kept, none, or all. -/
inductive Chomping where
  | clip
  | strip
  | keep
  deriving DecidableEq

structure BlockHeader where
  folded : Bool
  chomping : Chomping
  indentation : Option Nat

def takeChomping (c : Cursor) : Option Chomping × Cursor :=
  match c.rest with
  | '-' :: _ => (some .strip, c.behind ['-'])
  | '+' :: _ => (some .keep, c.behind ['+'])
  | _ => (none, c)

def takeIndentation (c : Cursor) : Option Nat × Cursor :=
  match c.rest with
  | [] => (none, c)
  | d :: _ => if d.isDigit then (some (d.toNat - '0'.toNat), c.behind [d]) else (none, c)

/-- The marks behind the style, in either order. -/
def takeMarks (c : Cursor) : Option Chomping × Option Nat × Cursor :=
  let (before, c) := takeChomping c
  let (indentation, c) := takeIndentation c
  if before.isNone && indentation.isSome then
    let (behind, c) := takeChomping c
    (behind, indentation, c)
  else (before, indentation, c)

/-- The rest of a header line. A comment in it stands apart from the marks. -/
def endOfHeader? (c : Cursor) : Option Cursor :=
  let next := c.skipSpaces
  let next :=
    if next.rest.head? = some '#' ∧ c.rest.head? = some ' ' then
      next.behind (next.rest.takeWhile (!endsLine ·))
    else next
  match next.rest with
  | [] => some next
  | d :: _ => if isBreak d then some (next.behind [d]) else none

/-- The header at `c`, and the start of the line behind it. -/
def readHeader? (c : Cursor) : Option (BlockHeader × Cursor) :=
  match c.rest with
  | [] => none
  | style :: _ =>
    let (chomping, indentation, next) := takeMarks (c.behind [style])
    if indentation = some 0 then none
    else
      (endOfHeader? next).map fun next =>
        (⟨style == '>', chomping.getD .clip, indentation⟩, next)

/-- The empty lines in front of a block scalar: their breaks, latest first, the column where the
first of them ends, and the widest indentation up to the first line with something in it. -/
structure LeadingLines where
  breaks : List Char
  first : Option Nat
  widest : Nat

def leadingFrom (l : LeadingLines) (p : Place) : List Char → LeadingLines × Cursor
  | [] => (l, ⟨[], p⟩)
  | c :: rest =>
    if c = ' ' then
      leadingFrom { l with widest := max l.widest (p.next c).column } (p.next c) rest
    else if isBreak c then
      leadingFrom { l with breaks := breakText c :: l.breaks, first := l.first.or (some p.column) }
        (p.next c) rest
    else (l, ⟨c :: rest, p⟩)

/-- A first line of blanks alone sets the indentation that no line may exceed. -/
def LeadingLines.isUneven (l : LeadingLines) : Bool :=
  l.first.any fun column => 0 < column && column < l.widest

/-- Skips empty lines, and behind each at most `indent` spaces. Their breaks are given latest
first. -/
def emptyFrom (indent : Nat) (breaks : List Char) (p : Place) : List Char → List Char × Cursor
  | [] => (breaks, ⟨[], p⟩)
  | c :: rest =>
    if c = ' ' ∧ p.column < indent then emptyFrom indent breaks (p.next c) rest
    else if isBreak c then emptyFrom indent (breakText c :: breaks) (p.next c) rest
    else (breaks, ⟨c :: rest, p⟩)

/-- How the lines of a block scalar are read. A line that separates documents ends one that stands
in no block. -/
structure BlockStyle where
  header : BlockHeader
  indent : Nat
  outermost : Bool

/-- Where a block scalar is being read: inside a line, or behind one, with the breaks of the empty
lines since, latest first. A line is told apart by the blank that it may begin with. -/
inductive BlockState where
  | inside (blank : Bool)
  | behind (blank : Bool) (breaks : List Char)

/-- The whole text, in reverse, when `breaks` follow the line that `lineEnd` has ended. -/
def BlockStyle.finish (b : BlockStyle) (done lineEnd breaks : List Char) : String :=
  String.ofList <| List.reverse <|
    match b.header.chomping with
    | .clip => lineEnd ++ done
    | .strip => done
    | .keep => breaks ++ lineEnd ++ done

/-- What stands, in reverse, between two lines. Folding joins lines that begin without a blank. -/
def BlockStyle.joint (b : BlockStyle) (blank nextBlank : Bool) (breaks : List Char) : List Char :=
  if b.header.folded && !blank && !nextBlank then if breaks.isEmpty then [' '] else breaks
  else breaks ++ ['\n']

/-- The block scalar whose part in `done`, in reverse, has been read. -/
def blockFrom (b : BlockStyle) (done : List Char) (state : BlockState) (p : Place) :
    List Char → String × Cursor
  | [] =>
    match state with
    | .inside _ => (b.finish done [] [], ⟨[], p⟩)
    | .behind _ breaks => (b.finish done ['\n'] breaks, ⟨[], p⟩)
  | c :: rest =>
    match state with
    | .inside blank =>
      if endsLine c then blockFrom b done (.behind blank []) (p.next c) rest
      else blockFrom b (c :: done) (.inside blank) (p.next c) rest
    | .behind blank breaks =>
      if c = ' ' ∧ p.column < b.indent then blockFrom b done (.behind blank breaks) (p.next c) rest
      else if isBreak c then
        blockFrom b done (.behind blank (breakText c :: breaks)) (p.next c) rest
      else if p.column ≠ b.indent ∨ (b.outermost ∧ p.column = 0 ∧ isMarker (c :: rest)) then
        (b.finish done ['\n'] breaks, ⟨c :: rest, p⟩)
      else
        blockFrom b (c :: b.joint blank (isGap c) breaks ++ done) (.inside (isGap c)) (p.next c)
          rest

def BlockStyle.read (b : BlockStyle) (breaks : List Char) (c : Cursor) : String × Cursor :=
  match c.rest with
  | [] => (b.finish [] [] breaks, c)
  | d :: rest =>
    if c.place.column = b.indent then
      blockFrom b (d :: breaks) (.inside (isGap d)) (c.place.next d) rest
    else (b.finish [] [] breaks, c)

/-- The block scalar at `c`, in a block whose column is one less than `least`. -/
def readBlockScalar? (least : Nat) (c : Cursor) : Option (String × Cursor) := do
  let (header, c) ← readHeader? c
  match header.indentation with
  | some n =>
    let indent := max least 1 + n - 1
    let (breaks, c) := emptyFrom indent [] c.place c.rest
    return BlockStyle.read ⟨header, indent, false⟩ breaks c
  | none =>
    let (leading, c) := leadingFrom ⟨[], none, 0⟩ c.place c.rest
    if leading.isUneven then none
    else return BlockStyle.read ⟨header, max least leading.widest, least == 0⟩ leading.breaks c

end TextTemplate.Yaml
