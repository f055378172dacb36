import TextTemplate.Context
import TextTemplate.Node

/-! Resolving paths, segment by segment from the left up to the first that does not apply. -/

namespace TextTemplate

inductive StepFault where
  | noField (segment : String)
  | noIndex (segment : String)
  | outOfRange (segment : String) (length : Nat)
  | onScalar (segment : String)
  | onAbsent (segment : String)
  deriving DecidableEq

namespace StepFault

def reason : StepFault → String
  | noField segment => s!"field '{segment}' not found"
  | noIndex segment => s!"'{segment}' is not a valid sequence index"
  | outOfRange segment length => s!"index {segment} out of range (length {length})"
  | onScalar segment => s!"cannot access '{segment}' on a scalar"
  | onAbsent segment => s!"cannot access '{segment}' on an absent value"

end StepFault

/-- The failing segment, and the part of the path before it. -/
structure PathFault where
  segment : String
  resolved : String
  fault : StepFault
  deriving DecidableEq

/-- A path fails at a segment, or on an index that is no number or too long a one. -/
inductive ResolveError where
  | path (fault : PathFault)
  | integer (fault : IntegerFault)
  deriving DecidableEq

abbrev Resolving := Except ResolveError

def isIndexText (segment : String) : Bool :=
  segment ≠ "" && segment.toList.all isDigitLike

namespace Value

/-- One segment applied to a value that the path led to by `resolved`. -/
def step (v : Value) (segment resolved : String) : Resolving Value :=
  let fail (fault : StepFault) : Resolving Value := .error (.path ⟨segment, resolved, fault⟩)
  match v with
  | record fields => (NameMap.get? fields segment).elim (fail (.noField segment)) .ok
  | sequence items =>
    if isIndexText segment then do
      let index ← Except.mapError .integer (readInteger segment)
      ((sequence items).item? index).elim (fail (.outOfRange segment items.length)) .ok
    else fail (.noIndex segment)
  | scalar _ => fail (.onScalar segment)
  | absent => fail (.onAbsent segment)

def extendText (resolved segment : String) : String :=
  if resolved = "" then segment else resolved ++ "." ++ segment

def steps (v : Value) (resolved : String) : List String → Resolving Value
  | [] => .ok v
  | segment :: rest => do
    let next ← v.step segment resolved
    next.steps (extendText resolved segment) rest

end Value

namespace Context

def startOf (c : Context) (p : Path) : Value × String × List String :=
  match p.rootName?.bind fun name => (c.lookup? name).map fun v => (v, name) with
  | some (v, name) => (v, name, p.segments.drop 1)
  | none => (c.current, "@", p.segments)

def resolve (c : Context) (p : Path) : Resolving Value :=
  let (v, resolved, segments) := c.startOf p
  v.steps resolved segments

end Context

end TextTemplate
