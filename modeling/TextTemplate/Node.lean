import TextTemplate.Position

/-! Templates as trees, with the dotted paths by which their nodes refer to values. A chain of
`else if` branches is an if-block whose else part is exactly one further if-block. -/

namespace TextTemplate

/-- A path from the current value, or one whose first segment may be the name of a binding. -/
structure Path where
  segments : List String
  fromCurrent : Bool
  deriving DecidableEq

namespace Path

def rootName? (p : Path) : Option String :=
  if p.fromCurrent then none else p.segments.head?

def text (p : Path) : String :=
  String.intercalate "." ((if p.fromCurrent then ["@"] else []) ++ p.segments)

end Path

inductive Literal where
  | text (value : String)
  | integer (value : Int)
  deriving DecidableEq

structure FormatterCall where
  name : String
  arguments : List Literal
  deriving DecidableEq

inductive Node where
  | text (position : Position) (text : String)
  | comment (position : Position) (text : String)
  | value (position : Position) (path : Path) (formatter : Option FormatterCall)
  | ifBlock (position : Position) (condition : Path) (body : List Node)
      (otherwise : Option (List Node))
  | forBlock (position : Position) (item : String) (index : Option String) (source : Path)
      (body : List Node)
  | withBlock (position : Position) (name : String) (source : Path) (body : List Node)
  | call (position : Position) (template : String) (root : Option Path)
      (arguments : List (String × Path))

namespace Node

def position : Node → Position
  | text p _ | comment p _ | value p _ _ | ifBlock p _ _ _ | forBlock p _ _ _ _ | withBlock p _ _ _
  | call p _ _ _ => p

mutual

/-- Equality of trees, whatever their positions. -/
def same : Node → Node → Bool
  | text _ t, text _ t' => t == t'
  | comment _ t, comment _ t' => t == t'
  | value _ p f, value _ p' f' => p == p' && f == f'
  | ifBlock _ c b e, ifBlock _ c' b' e' => c == c' && sameList b b' && sameOption e e'
  | forBlock _ v i s b, forBlock _ v' i' s' b' => v == v' && i == i' && s == s' && sameList b b'
  | withBlock _ n s b, withBlock _ n' s' b' => n == n' && s == s' && sameList b b'
  | call _ t r as, call _ t' r' as' => t == t' && r == r' && as == as'
  | _, _ => false

def sameList : List Node → List Node → Bool
  | [], [] => true
  | n :: ns, m :: ms => same n m && sameList ns ms
  | _, _ => false

def sameOption : Option (List Node) → Option (List Node) → Bool
  | none, none => true
  | some ns, some ms => sameList ns ms
  | _, _ => false

end

end Node

structure Template where
  name : String
  nodes : List Node

namespace Template

def same (t u : Template) : Bool :=
  Node.sameList t.nodes u.nodes

end Template

end TextTemplate
