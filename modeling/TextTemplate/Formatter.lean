import TextTemplate.Datum
import TextTemplate.Node

/-! Formatters: named functions from a value, and further arguments, to text. -/

namespace TextTemplate

/-- Why a formatter refuses a value. -/
inductive FormatFault where
  | noText (kind : ValueKind)
  | noSequence (kind : ValueKind)
  | noNumber (kind : ValueKind)
  | refused (reason : String)
  deriving DecidableEq

namespace FormatFault

def message : FormatFault → String
  | noText kind => s!"Cannot format {kind.name} as text"
  | noSequence kind => s!"join expects a sequence, got {kind.name}"
  | noNumber kind => s!"pluralize expects a number, got {kind.name}"
  | refused reason => reason

end FormatFault

/-- Why a formatter gives no result. Only the first is a fault that a formatter reports. -/
inductive FormatFailure where
  | fault (fault : FormatFault)
  | integer (fault : IntegerFault)
  | crash (reason : String)
  deriving DecidableEq

/-- What a formatter hands back: a text, if it does what it should. -/
inductive FormatResult where
  | text (text : String)
  | other (datum : Datum)

/-- The parameters behind the value: those that need an argument, the number of those that can do
without one, and whether any number of further arguments is welcome. -/
structure Signature where
  required : List String
  optional : Nat
  variadic : Bool
  deriving DecidableEq

inductive ArgumentFault where
  | tooMany
  | missing (parameter : String)
  deriving DecidableEq

namespace ArgumentFault

def message : ArgumentFault → String
  | tooMany => "too many positional arguments"
  | missing parameter => s!"missing a required argument: '{parameter}'"

end ArgumentFault

namespace Signature

def fault? (s : Signature) (count : Nat) : Option ArgumentFault :=
  match s.required.drop count with
  | parameter :: _ => some (.missing parameter)
  | [] => if !s.variadic && s.required.length + s.optional < count then some .tooMany else none

end Signature

/-- A formatter, with its signature if that is known. -/
structure Formatter where
  signature : Option Signature
  run : Value → List Literal → Except FormatFailure FormatResult

namespace Value

/-- The text of a scalar; what is absent has the empty one. -/
def toText (v : Value) : Except FormatFailure String :=
  match v with
  | scalar data => data.toText.mapError .integer
  | absent => .ok ""
  | v => .error (.fault (.noText v.kind))

end Value

namespace Literal

def toText : Literal → Except FormatFailure String
  | text s => .ok s
  | integer n => (writeInteger n).mapError .integer

end Literal

end TextTemplate
