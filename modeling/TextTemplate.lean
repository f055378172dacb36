import TextTemplate.Compile
import TextTemplate.Context
import TextTemplate.Datum
import TextTemplate.Engine
import TextTemplate.Formatter
import TextTemplate.Formatter.Builtin
import TextTemplate.Formatter.Registry
import TextTemplate.CompileError
import TextTemplate.Log
import TextTemplate.NameMap
import TextTemplate.Node
import TextTemplate.Node.Assembly
import TextTemplate.Node.Directive
import TextTemplate.Number.Integer
import TextTemplate.Number.Real
import TextTemplate.Number.Shortest
import TextTemplate.Position
import TextTemplate.Render
import TextTemplate.RenderError
import TextTemplate.Resolution
import TextTemplate.Settings
import TextTemplate.Text.CharClass
import TextTemplate.Text.Case
import TextTemplate.Text.Quoted
import TextTemplate.Token
import TextTemplate.Token.Stream
import TextTemplate.Token.Lexeme
import TextTemplate.Token.Scan
import TextTemplate.Value
import TextTemplate.Memory
import TextTemplate.Value.Json
import TextTemplate.Yaml.Cursor
import TextTemplate.Yaml.Document
import TextTemplate.Yaml.Literal
import TextTemplate.Yaml.Node
import TextTemplate.Yaml.Plain
import TextTemplate.Yaml.Quoted
import TextTemplate.Yaml.Scalar
import TextTemplate.Yaml.Token
import TextTemplate.Proofs.Result
import TextTemplate.Proofs.Meaning
import TextTemplate.Proofs.Rendering
import TextTemplate.Proofs.ContextHistory
import TextTemplate.Proofs.Decimal
import TextTemplate.Proofs.Lexeme
import TextTemplate.Proofs.Trim
import TextTemplate.Proofs.Tile
import TextTemplate.Proofs.Tiling
import TextTemplate.Proofs.Grammar.Phrase
import TextTemplate.Proofs.Grammar.Content
import TextTemplate.Proofs.Grammar.Readable
import TextTemplate.Proofs.Grammar.Reading
import TextTemplate.Proofs.Grammar.ReadingInversion
import TextTemplate.Proofs.Grammar.Assembling
import TextTemplate.Proofs.Grammar.AssemblyInversion
import TextTemplate.Proofs.Grammar.Unambiguity
import TextTemplate.Proofs.Grammar.Acceptance
import TextTemplate.Proofs.Source.WellFormed
import TextTemplate.Proofs.Source.Compiled
import TextTemplate.Proofs.Source.Spelling
import TextTemplate.Proofs.Source.Phrasing
import TextTemplate.Proofs.Source.Tag
import TextTemplate.Proofs.Source.Writing
import TextTemplate.Proofs.Source.Image
import TextTemplate.Proofs.Preorder
import TextTemplate.Proofs.Invariant
import TextTemplate.Proofs.CallChain
import TextTemplate.Proofs.Moment
import TextTemplate.Proofs.Recursion
import TextTemplate.Proofs.Escaping
import TextTemplate.Proofs.Autoescape
import TextTemplate.Proofs.Source.Failure
import TextTemplate.Proofs.Stop
import TextTemplate.Proofs.Extension
import TextTemplate.Proofs.Isolation
import TextTemplate.Proofs.Registries
import TextTemplate.Proofs.RegistryHistory
import TextTemplate.Proofs.History
import TextTemplate.Proofs.LongNumber
import TextTemplate.Proofs.LookUp
import TextTemplate.Proofs.Machine
import TextTemplate.Proofs.Documented
import TextTemplate.Proofs.Likeness.Assembling
import TextTemplate.Proofs.Source.OnDemand
import TextTemplate.Proofs.Place
import TextTemplate.Proofs.Source.Landmark
import TextTemplate.Proofs.Likeness.Rendering
import TextTemplate.Proofs.Likeness.Scanning
import TextTemplate.Proofs.Source.Seam
import TextTemplate.Proofs.FieldOrder
import TextTemplate.Proofs.Source.Stripping
import TextTemplate.Proofs.Frame
import TextTemplate.Proofs.FaultSite
import TextTemplate.Proofs.Validation
import TextTemplate.Proofs.Unescaping
import TextTemplate.Proofs.UnknownKeys
import TextTemplate.Proofs.ElseIf
import TextTemplate.Proofs.Comments
import TextTemplate.Proofs.Stepping
import TextTemplate.Proofs.Unrolling
import TextTemplate.Proofs.Renaming
import TextTemplate.Proofs.Nesting.Pending
import TextTemplate.Proofs.Nesting.Blame
import TextTemplate.Proofs.Nesting.Limit
import TextTemplate.Proofs.Source.Outcome
import TextTemplate.Proofs.OpenDirective
import TextTemplate.Proofs.Quoting
import TextTemplate.Proofs.Likeness.Positions
import TextTemplate.Proofs.RootDocument
import TextTemplate.Proofs.Distinct
import TextTemplate.Proofs.Conversion
import TextTemplate.Proofs.Shortest
import TextTemplate.Proofs.Json.Decoder
import TextTemplate.Proofs.Json.Denotation
import TextTemplate.Proofs.Json.Grammar
import TextTemplate.Proofs.Json.Number
import TextTemplate.Proofs.Json.NumberLiteral
import TextTemplate.Proofs.Json.RoundTrip
import TextTemplate.Proofs.Json.StringLiteral
import TextTemplate.Proofs.Json.Writing
import TextTemplate.Proofs.Overlay
import TextTemplate.Proofs.Equality
import TextTemplate.Proofs.Objects
import TextTemplate.Proofs.Parts
import TextTemplate.Proofs.Lookahead
import TextTemplate.Proofs.Lookahead.Reading
import TextTemplate.Proofs.Lookahead.Descent
import TextTemplate.Proofs.Lookahead.Agreement
import TextTemplate.Proofs.Lookahead.Progress
