import TextTemplate.Number.Integer
import TextTemplate.Position
import TextTemplate.Text.Quoted
import TextTemplate.Token

/-! Why a text has no tokens beyond some place, and why a sequence of tokens is no template. -/

namespace TextTemplate

inductive LexFault where
  | unterminatedDirective
  | unterminatedComment
  | unterminatedString
  | unexpectedCharacter (character : Char)
  deriving DecidableEq

namespace LexFault

def reason : LexFault → String
  | unterminatedDirective => "Unterminated directive, expected '\x7d\x7d'"
  | unterminatedComment => "Unterminated comment, expected '\x7d\x7d'"
  | unterminatedString => "Unterminated string literal"
  | unexpectedCharacter c => s!"Unexpected character in directive: {quoted c.toString}"

end LexFault

structure LexError where
  fault : LexFault
  position : Position
  deriving DecidableEq

namespace LexError

def message (e : LexError) : String :=
  s!"{e.fault.reason} at {e.position.text}"

end LexError

inductive BlockKind where
  | ifBlock
  | forBlock
  | withBlock
  deriving DecidableEq

namespace BlockKind

def opener : BlockKind → Keyword
  | ifBlock => .ifWord
  | forBlock => .forWord
  | withBlock => .withWord

def closer : BlockKind → Keyword
  | ifBlock => .endifWord
  | forBlock => .endforWord
  | withBlock => .endwithWord

def closedBy (kind : BlockKind) (k : Keyword) : Bool :=
  k == kind.closer || (kind == ifBlock && k == .elseWord)

end BlockKind

/-- What could have stood where something else was found. -/
inductive Expected where
  | content
  | blockCloser (kind : BlockKind)
  | directive
  | directiveCloser
  | loopVariable
  | indexVariable
  | bindingName
  | argumentName
  | formatterName
  | templateName
  | path
  | segment
  | keyword (keyword : Keyword)
  | equalsSign
  | nesting (limit : Int)
  deriving DecidableEq

namespace Expected

def text : Expected → String
  | content => "text or directive"
  | blockCloser kind => s!"'{kind.closer.word}'"
  | directive => "directive"
  | directiveCloser => "'\x7d\x7d'"
  | loopVariable => "loop variable name"
  | indexVariable => "index variable name"
  | bindingName => "binding name"
  | argumentName => "argument name"
  | formatterName => "formatter name"
  | templateName => "template name"
  | path => "path"
  | segment => "field name or index"
  | keyword k => s!"'{k.word}'"
  | equalsSign => "'='"
  | nesting limit => s!"at most {limit} nested blocks"

end Expected

/-- The faults name what was found by its description, or a word by its spelling. -/
inductive ParseFault where
  | unexpected (expected : Expected) (found : String)
  | strayCloser (expected : Expected) (word : String)
  | unclosed (kind : BlockKind) (found : String)
  | emptyDirective (found : String)
  | duplicateArgument (name : String)
  | reservedWord (word : String)
  | tooDeep (limit : Int)
  deriving DecidableEq

namespace ParseFault

def expected : ParseFault → Expected
  | unexpected e _ => e
  | strayCloser e _ => e
  | unclosed kind _ => .blockCloser kind
  | emptyDirective _ => .directive
  | duplicateArgument _ => .argumentName
  | reservedWord _ => .path
  | tooDeep limit => .nesting limit

def found : ParseFault → String
  | unexpected _ found => found
  | strayCloser _ word => s!"'{word}'"
  | unclosed _ found => found
  | emptyDirective found => found
  | duplicateArgument name => s!"'{name}'"
  | reservedWord word => s!"'{word}'"
  | tooDeep _ => "deeper nesting"

def text : ParseFault → String
  | unexpected e found => s!"Expected {e.text}, found {found}"
  | strayCloser e word => s!"Unexpected '{word}', expected {e.text}"
  | unclosed kind found =>
    s!"Unclosed '{kind.opener.word}' block, expected '{kind.closer.word}' before {found}"
  | emptyDirective _ => "Empty directive"
  | duplicateArgument name => s!"Duplicate argument '{name}'"
  | reservedWord word => s!"Reserved keyword '{word}' cannot be used as a path"
  | tooDeep limit => s!"Block nesting exceeds maximum depth of {limit}"

end ParseFault

structure ParseError where
  fault : ParseFault
  position : Position
  deriving DecidableEq

namespace ParseError

def message (e : ParseError) : String :=
  s!"{e.fault.text} at {e.position.text}"

end ParseError

/-- Why a text does not compile. An integer argument may be beyond what can be read, and the limit
of the nesting beyond what can be written. -/
inductive CompileError where
  | lex (error : LexError)
  | parse (error : ParseError)
  | integer (fault : IntegerFault)
  | limit (fault : IntegerFault)
  deriving DecidableEq

namespace CompileError

/-- The error at a block beyond the limit, which its text gives. -/
def tooDeep (limit : Int) (opener : Position) : CompileError :=
  match writeInteger limit with
  | .ok _ => .parse ⟨.tooDeep limit, opener⟩
  | .error fault => .limit fault

end CompileError

end TextTemplate
