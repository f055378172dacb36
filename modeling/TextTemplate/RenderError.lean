import TextTemplate.Formatter
import TextTemplate.Position
import TextTemplate.Resolution

/-! Why rendering stops before the end of a template. -/

namespace TextTemplate

inductive RenderFault where
  | pathNotFound (path : Path) (fault : StepFault)
  | notIterable (source : Path) (kind : ValueKind)
  | unknownFormatter (name : String)
  | unknownTemplate (name : String)
  | depthExceeded (limit : Int)
  | badArguments (formatter : String) (count : Nat) (fault : ArgumentFault)
  | formatFailed (formatter : String) (path : Path) (fault : FormatFault)
  | notText (formatter : String) (typeName : String)
  deriving DecidableEq

namespace RenderFault

def detail : RenderFault → String
  | pathNotFound path fault => s!"Path '{path.text}' not found: {fault.reason}"
  | notIterable source kind =>
    s!"Cannot iterate over '{source.text}': expected sequence, got {kind.name}"
  | unknownFormatter name => s!"Unknown formatter '{name}'"
  | unknownTemplate name => s!"Unknown template '{name}'"
  | depthExceeded limit => s!"Render depth exceeds maximum of {limit}"
  | badArguments formatter count fault =>
    s!"Formatter '{formatter}' does not accept {count} argument(s): {fault.message}"
  | formatFailed formatter path fault =>
    s!"Formatter '{formatter}' failed for '{path.text}': {fault.message}"
  | notText formatter typeName =>
    s!"Formatter '{formatter}' returned {typeName}, expected str"

end RenderFault

structure RenderError where
  fault : RenderFault
  position : Position
  templateName : String
  deriving DecidableEq

namespace RenderError

def message (e : RenderError) : String :=
  let place := if e.templateName = "" then "" else e.templateName ++ ":"
  s!"{e.fault.detail} at {place}{e.position.text}"

end RenderError

/-- What ends a rendering early. Only the first is located in a template; the last takes its place
where the limit of the depth is beyond what can be written. -/
inductive Interruption where
  | error (error : RenderError)
  | integer (fault : IntegerFault)
  | crash (reason : String)
  | limit (fault : IntegerFault)
  deriving DecidableEq

namespace Interruption

/-- What ends a rendering at a level beyond the limit, which the text of the error gives. -/
def tooDeep (limit : Int) (position : Position) (name : String) : Interruption :=
  match writeInteger limit with
  | .ok _ => .error ⟨.depthExceeded limit, position, name⟩
  | .error fault => .limit fault

end Interruption

end TextTemplate
