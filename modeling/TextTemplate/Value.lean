import TextTemplate.NameMap
import TextTemplate.Number.Integer
import TextTemplate.Number.Real

/-! The values that a template works on. Their texts are sequences of Unicode scalar values: no text
holds a lone surrogate, and every text can be encoded. -/

namespace TextTemplate

inductive Scalar where
  | text (data : String)
  | integer (data : Int)
  | real (data : Float)
  | truth (data : Bool)

inductive Value where
  | scalar (data : Scalar)
  | sequence (items : List Value)
  | record (fields : List (String × Value))
  | absent

inductive ValueKind where
  | scalar
  | sequence
  | record
  | absent
  deriving DecidableEq

namespace ValueKind

def name : ValueKind → String
  | scalar => "scalar"
  | sequence => "sequence"
  | record => "structure"
  | absent => "absent"

end ValueKind

namespace Scalar

/-- Scalars of different types differ, whatever their data. -/
def equal : Scalar → Scalar → Bool
  | text s, text t => s == t
  | integer m, integer n => m == n
  | real x, real y => x == y
  | truth a, truth b => a == b
  | _, _ => false

def toText : Scalar → Except IntegerFault String
  | text s => .ok s
  | integer n => writeInteger n
  | real x => .ok (realText x)
  | truth b => .ok (if b then "true" else "false")

end Scalar

namespace Value

def text (s : String) : Value := scalar (.text s)

def integer (n : Int) : Value := scalar (.integer n)

def kind : Value → ValueKind
  | scalar _ => .scalar
  | sequence _ => .sequence
  | record _ => .record
  | absent => .absent

/-- Only what is missing, false or empty is not truthy; zero and the empty text are. -/
def isTruthy : Value → Bool
  | scalar (.truth b) => b
  | scalar _ => true
  | sequence items => !items.isEmpty
  | record fields => !fields.isEmpty
  | absent => false

def size? : Value → Option Nat
  | sequence items => some items.length
  | record fields => some fields.length
  | _ => none

def item? (v : Value) (index : Int) : Option Value :=
  match v with
  | sequence items => if index < 0 then none else items[index.toNat]?
  | _ => none

def field? (v : Value) (name : String) : Option Value :=
  match v with
  | record fields => NameMap.get? fields name
  | _ => none

end Value

end TextTemplate
