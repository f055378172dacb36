import TextTemplate.Node.Directive
import TextTemplate.Proofs.Decimal

/-! The grammar of directives as trees over tokens. A tree spells the tokens it was built over and
means a part of a node, so every tree is a derivation of its tokens. -/

namespace TextTemplate

abbrev Terminal (kind : TokenKind) := { t : Token // t.kind = kind }

abbrev PathHead := { t : Token // t.kind = .atSign ∨ t.kind = .identifier }

abbrev Segment := { t : Token // t.kind = .identifier ∨ t.kind = .integer }

abbrev LiteralToken :=
  { t : Token // t.kind = .string ∨ t.kind = .integer ∧ IsDecimal t.value }

def pairTokens {p q : Token → Prop} (pairs : List ({ t // p t } × { t // q t })) : List Token :=
  pairs.flatMap fun pair => [pair.1.1, pair.2.1]

structure PathPhrase where
  head : PathHead
  steps : List (Terminal .dot × Segment)

namespace PathPhrase

def tokens (p : PathPhrase) : List Token := p.head.1 :: pairTokens p.steps

def path (p : PathPhrase) : Path :=
  let fields := p.steps.map (·.2.1.value)
  if p.head.1.kind = .atSign then ⟨fields, true⟩ else ⟨p.head.1.value :: fields, false⟩

end PathPhrase

namespace LiteralToken

/-- A string, or the number that the digits spell. -/
def literal (t : LiteralToken) : Literal :=
  if t.1.kind = .string then .text t.1.value
  else .integer (Nat.ofDigitChars 10 t.1.value.toList 0)

def tokens (literals : List LiteralToken) : List Token := literals.map Subtype.val

end LiteralToken

structure FormatterPhrase where
  pipe : Terminal .pipe
  name : Terminal .identifier
  arguments : List LiteralToken

namespace FormatterPhrase

def tokens (p : FormatterPhrase) : List Token :=
  p.pipe.1 :: p.name.1 :: LiteralToken.tokens p.arguments

def formatter (p : FormatterPhrase) : FormatterCall :=
  ⟨p.name.1.value, p.arguments.map LiteralToken.literal⟩

end FormatterPhrase

structure ValuePhrase where
  path : PathPhrase
  formatter : Option FormatterPhrase

namespace ValuePhrase

def tokens (p : ValuePhrase) : List Token :=
  p.path.tokens ++ p.formatter.elim [] FormatterPhrase.tokens

def directive (p : ValuePhrase) : Directive :=
  .value p.path.path (p.formatter.map FormatterPhrase.formatter)

end ValuePhrase

inductive NamePhrase where
  | quoted (t : Terminal .string)
  | dotted (first : Terminal .identifier) (more : List (Terminal .dot × Terminal .identifier))

namespace NamePhrase

def tokens : NamePhrase → List Token
  | quoted t => [t.1]
  | dotted first more => first.1 :: pairTokens more

def name : NamePhrase → String
  | quoted t => t.1.value
  | dotted first more => String.intercalate "." (first.1.value :: more.map (·.2.1.value))

end NamePhrase

structure ArgumentPhrase where
  comma : Terminal .comma
  name : Terminal .identifier
  equals : Terminal .equals
  path : PathPhrase

namespace ArgumentPhrase

def tokens (p : ArgumentPhrase) : List Token :=
  p.comma.1 :: p.name.1 :: p.equals.1 :: p.path.tokens

def argument (p : ArgumentPhrase) : String × Path := (p.name.1.value, p.path.path)

end ArgumentPhrase

structure CallPhrase where
  word : Terminal (.keyword .callWord)
  name : NamePhrase
  root : Option (Terminal (.keyword .withWord) × PathPhrase)
  arguments : List ArgumentPhrase
  distinct : (arguments.map (·.name.1.value)).Nodup

namespace CallPhrase

def rootTokens (root : Option (Terminal (.keyword .withWord) × PathPhrase)) : List Token :=
  root.elim [] fun part => part.1.1 :: part.2.tokens

def tokens (p : CallPhrase) : List Token :=
  p.word.1 :: (p.name.tokens ++ (rootTokens p.root ++ p.arguments.flatMap ArgumentPhrase.tokens))

def directive (p : CallPhrase) : Directive :=
  .call p.name.name (p.root.map (·.2.path)) (p.arguments.map ArgumentPhrase.argument)

end CallPhrase

structure IfPhrase where
  word : Terminal (.keyword .ifWord)
  condition : PathPhrase

namespace IfPhrase

def tokens (p : IfPhrase) : List Token := p.word.1 :: p.condition.tokens

end IfPhrase

structure ForPhrase where
  word : Terminal (.keyword .forWord)
  item : Terminal .identifier
  index : Option (Terminal .comma × Terminal .identifier)
  inWord : Terminal (.keyword .inWord)
  source : PathPhrase

namespace ForPhrase

def indexTokens (index : Option (Terminal .comma × Terminal .identifier)) : List Token :=
  index.elim [] fun part => [part.1.1, part.2.1]

def tokens (p : ForPhrase) : List Token :=
  p.word.1 :: p.item.1 :: (indexTokens p.index ++ p.inWord.1 :: p.source.tokens)

def directive (p : ForPhrase) : Directive :=
  .forHead p.item.1.value (p.index.map (·.2.1.value)) p.source.path

end ForPhrase

structure WithPhrase where
  word : Terminal (.keyword .withWord)
  source : PathPhrase
  asWord : Terminal (.keyword .asWord)
  name : Terminal .identifier

namespace WithPhrase

def tokens (p : WithPhrase) : List Token :=
  p.word.1 :: (p.source.tokens ++ [p.asWord.1, p.name.1])

def directive (p : WithPhrase) : Directive := .withHead p.source.path p.name.1.value

end WithPhrase

/-- Directives that are nodes of their own. -/
inductive LeafPhrase where
  | comment (t : Terminal .comment)
  | value (p : ValuePhrase)
  | call (p : CallPhrase)

namespace LeafPhrase

def tokens : LeafPhrase → List Token
  | comment t => [t.1]
  | value p => p.tokens
  | call p => p.tokens

def directive : LeafPhrase → Directive
  | comment t => .comment t.1.value
  | value p => p.directive
  | call p => p.directive

def node (position : Position) : LeafPhrase → Node
  | comment t => .comment position t.1.value
  | value p => .value position p.path.path (p.formatter.map FormatterPhrase.formatter)
  | call p => .call position p.name.name (p.root.map (·.2.path))
      (p.arguments.map ArgumentPhrase.argument)

end LeafPhrase

/-- Heads of the blocks that have one part. -/
inductive BlockPhrase where
  | loop (p : ForPhrase)
  | binding (p : WithPhrase)

namespace BlockPhrase

def tokens : BlockPhrase → List Token
  | loop p => p.tokens
  | binding p => p.tokens

def directive : BlockPhrase → Directive
  | loop p => p.directive
  | binding p => p.directive

def kind : BlockPhrase → BlockKind
  | loop _ => .forBlock
  | binding _ => .withBlock

def node (position : Position) (body : List Node) : BlockPhrase → Node
  | loop p => .forBlock position p.item.1.value (p.index.map (·.2.1.value)) p.source.path body
  | binding p => .withBlock position p.name.1.value p.source.path body

end BlockPhrase

/-- Directives that are no closing words. -/
inductive DirectivePhrase where
  | leaf (p : LeafPhrase)
  | condition (p : IfPhrase)
  | block (p : BlockPhrase)

namespace DirectivePhrase

def tokens : DirectivePhrase → List Token
  | leaf p => p.tokens
  | condition p => p.tokens
  | block p => p.tokens

def directive : DirectivePhrase → Directive
  | leaf p => p.directive
  | condition p => .ifHead p.condition.path
  | block p => p.directive

end DirectivePhrase

end TextTemplate
