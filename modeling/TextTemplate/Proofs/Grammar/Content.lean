import TextTemplate.Proofs.Grammar.Phrase
import TextTemplate.Node.Assembly

/-! The grammar of templates as trees over tokens. -/

namespace TextTemplate

/-- A phrase between the delimiters of its directive. -/
structure Tag (α : Type) where
  opener : Terminal .opener
  inside : α
  closer : Terminal .closer

namespace Tag

def tokens {α : Type} (inner : α → List Token) (tag : Tag α) : List Token :=
  tag.opener.1 :: (inner tag.inside ++ [tag.closer.1])

end Tag

abbrev WordTag (word : Keyword) := Tag (Terminal (.keyword word))

def WordTag.tokens {word : Keyword} (tag : WordTag word) : List Token :=
  Tag.tokens (fun t => [t.1]) tag

abbrev ElseIfTag := Tag (Terminal (.keyword .elseWord) × IfPhrase)

def ElseIfTag.tokens (tag : ElseIfTag) : List Token :=
  Tag.tokens (fun part => part.1.1 :: part.2.tokens) tag

mutual

inductive Content where
  | nil
  | text (t : Terminal .text) (rest : Content)
  | leaf (tag : Tag LeafPhrase) (rest : Content)
  | ifBlock (head : Tag IfPhrase) (body : Content) (branches : IfRest) (rest : Content)
  | block (head : Tag BlockPhrase) (body : Content) (ending : WordTag head.inside.kind.closer)
      (rest : Content)

/-- An if-block behind the body of its first branch. -/
inductive IfRest where
  | ended (ending : WordTag .endifWord)
  | elseIf (tag : ElseIfTag) (body : Content) (rest : IfRest)
  | otherwise (tag : WordTag .elseWord) (body : Content) (ending : WordTag .endifWord)

end

mutual

def Content.tokens : Content → List Token
  | .nil => []
  | .text t rest => t.1 :: rest.tokens
  | .leaf tag rest => tag.tokens LeafPhrase.tokens ++ rest.tokens
  | .ifBlock head body branches rest =>
    head.tokens IfPhrase.tokens ++ (body.tokens ++ (branches.tokens ++ rest.tokens))
  | .block head body ending rest =>
    head.tokens BlockPhrase.tokens ++ (body.tokens ++ (ending.tokens ++ rest.tokens))

def IfRest.tokens : IfRest → List Token
  | .ended ending => ending.tokens
  | .elseIf tag body rest => tag.tokens ++ (body.tokens ++ rest.tokens)
  | .otherwise tag body ending => tag.tokens ++ (body.tokens ++ ending.tokens)

end

/-- Whether an opener with a dash stands in front of the tokens; `behind` answers for none. -/
def opensTrimming (behind : Bool) : List Token → Bool
  | [] => behind
  | t :: _ => t.kind == .opener && t.trims

def IfRest.trimsBefore : IfRest → Bool
  | .ended ending => ending.opener.1.trims
  | .elseIf tag _ _ => tag.opener.1.trims
  | .otherwise tag _ _ => tag.opener.1.trims

def IfRest.trimsBehind : IfRest → Bool
  | .ended ending => ending.closer.1.trims
  | .elseIf _ _ rest => rest.trimsBehind
  | .otherwise _ _ ending => ending.closer.1.trims

/-- A text that stands between delimiters with or without a dash. -/
def strippedText (text : String) (before behind : Bool) : String :=
  let text := if before then trimStart text else text
  if behind then trimEnd text else text

def textNodes (t : Token) (before behind : Bool) : List Node :=
  if strippedText t.value before behind = "" then []
  else [.text t.position (strippedText t.value before behind)]

mutual

/-- The nodes of the content, between delimiters that strip the blanks beside them or do not. -/
def Content.nodes (before behind : Bool) : Content → List Node
  | .nil => []
  | .text t rest =>
    textNodes t.1 before (opensTrimming behind rest.tokens) ++ rest.nodes false behind
  | .leaf tag rest =>
    tag.inside.node tag.opener.1.position :: rest.nodes tag.closer.1.trims behind
  | .ifBlock head body branches rest =>
    .ifBlock head.opener.1.position head.inside.condition.path
      (body.nodes head.closer.1.trims branches.trimsBefore) branches.otherwiseNodes ::
      rest.nodes branches.trimsBehind behind
  | .block head body ending rest =>
    head.inside.node head.opener.1.position
      (body.nodes head.closer.1.trims ending.opener.1.trims) ::
      rest.nodes ending.closer.1.trims behind

/-- A further condition is an if-block of its own, at the place of its `else`. -/
def IfRest.otherwiseNodes : IfRest → Option (List Node)
  | .ended _ => none
  | .elseIf tag body rest =>
    some [.ifBlock tag.inside.1.1.position tag.inside.2.condition.path
      (body.nodes tag.closer.1.trims rest.trimsBefore) rest.otherwiseNodes]
  | .otherwise tag body ending =>
    some (body.nodes tag.closer.1.trims ending.opener.1.trims)

end

mutual

/-- How many blocks are open at once at most. All branches of an if-block are one block. -/
def Content.mostOpen : Content → Nat
  | .nil => 0
  | .text _ rest => rest.mostOpen
  | .leaf _ rest => rest.mostOpen
  | .ifBlock _ body branches rest => max (max body.mostOpen branches.mostOpen + 1) rest.mostOpen
  | .block _ body _ rest => max (body.mostOpen + 1) rest.mostOpen

def IfRest.mostOpen : IfRest → Nat
  | .ended _ => 0
  | .elseIf _ body rest => max body.mostOpen rest.mostOpen
  | .otherwise _ body _ => body.mostOpen

end

end TextTemplate
