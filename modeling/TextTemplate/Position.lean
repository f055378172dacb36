/-! Places in a source text. -/

namespace TextTemplate

/-- A place in a text, counted in characters: the offset from 0, line and column from 1. -/
structure Position where
  offset : Nat
  line : Nat
  column : Nat
  deriving DecidableEq

namespace Position

def start : Position := ⟨0, 1, 1⟩

/-- The place behind `c`. Only a line feed begins a new line. -/
def next (p : Position) (c : Char) : Position :=
  if c = '\n' then ⟨p.offset + 1, p.line + 1, 1⟩ else ⟨p.offset + 1, p.line, p.column + 1⟩

def advance (p : Position) (cs : List Char) : Position :=
  cs.foldl next p

def text (p : Position) : String :=
  s!"{p.line}:{p.column}"

@[simp] theorem advance_nil (p : Position) : p.advance [] = p := rfl

@[simp] theorem advance_cons (p : Position) (c : Char) (cs : List Char) :
    p.advance (c :: cs) = (p.next c).advance cs := rfl

theorem advance_append (p : Position) (cs ds : List Char) :
    p.advance (cs ++ ds) = (p.advance cs).advance ds :=
  List.foldl_append

end Position

end TextTemplate
