import TextTemplate.Proofs.Lookahead.Reading

/-! Parsing by descent into the blocks, over a buffer of tokens. Each block is read by a call of its
own, which ends at a word that ends the block. Nothing in the definitions says that they end. -/

namespace TextTemplate

/-- The part of a block whose nodes are being read. -/
inductive BlockPart where
  | branch
  | otherwise
  | loop
  | binding

namespace BlockPart

def kind : BlockPart → BlockKind
  | branch | otherwise => .ifBlock
  | loop => .forBlock
  | binding => .withBlock

/-- The words that end the part. -/
def closers : BlockPart → List Keyword
  | branch => [.elseWord, .endifWord]
  | otherwise => [.endifWord]
  | loop => [.endforWord]
  | binding => [.endwithWord]

end BlockPart

/-- A block that is being read. -/
structure Enclosing where
  opener : Position
  part : BlockPart

namespace Enclosing

def unclosed (b : Enclosing) (found : String) : CompileError :=
  .parse ⟨.unclosed b.part.kind found, b.opener⟩

end Enclosing

/-- The blocks that the parser is in, innermost first, and how many there may be. -/
structure Nesting where
  limit : Int
  blocks : List Enclosing

namespace Nesting

variable (n : Nesting)

def within (b : Enclosing) : Nesting := ⟨n.limit, b :: n.blocks⟩

/-- The words that end what is being read. -/
def closers : List Keyword :=
  match n.blocks with
  | [] => []
  | b :: _ => b.part.closers

def expected : Expected :=
  match n.blocks with
  | [] => .content
  | b :: _ => .blockCloser b.part.kind

/-- The error at a closing word that does not end the innermost part. -/
def misplaced (word : Keyword) (t : Token) : CompileError :=
  match n.blocks with
  | b :: outer =>
    if outer.any (·.part.kind.closedBy word) then b.unclosed t.describe
    else .parse ⟨.strayCloser n.expected t.value, t.position⟩
  | [] => .parse ⟨.strayCloser n.expected t.value, t.position⟩

end Nesting

/-- The nodes of an unfinished list, and whether the closer right before asked to strip the text
behind it. -/
structure Gathering where
  nodes : List Node
  strips : Bool

/-- The branches of an if-block that are complete, latest first, and the head of the next one. -/
structure Branching where
  earlier : List Branch
  position : Position
  condition : Path
  strips : Bool

namespace Parser

def readText (strips : Bool) : Parser (List Node) := do
  let t ← advance
  let following ← peek 0
  return textNodes t strips (following.kind == .opener && following.trims)

/-- The next branch of an if-block, behind the `else if` that begins it. -/
def readBranching (earlier : List Branch) (position : Position) : Parser Branching := do
  let condition ← readPath
  let closer ← expect .closer .directiveCloser
  return ⟨earlier, position, condition, closer.trims⟩

end Parser

namespace Nesting

open TextTemplate.Parser

variable (n : Nesting)

/-- Refuses a further block when the blocks are as deep as they may be. -/
def enter (opener : Position) : Parser Unit :=
  if n.limit ≤ n.blocks.length then throw (.tooDeep n.limit opener) else return ()

mutual

/-- Reads nodes up to a word that ends the innermost part, which is answered too, or to the end of
the input. -/
def parseNodes (n : Nesting) (state : Gathering) : Parser (List Node × Option Token) := do
  match ← n |>.nodesTurn state with
  | .again state => n |>.parseNodes state
  | .finished result => return result
partial_fixpoint

def nodesTurn (n : Nesting) (state : Gathering) :
    Parser (Turn Gathering (List Node × Option Token)) := do
  let t ← peek 0
  match t.kind with
  | .endOfInput => return .finished (state.nodes, none)
  | .text =>
    let nodes ← readText state.strips
    return .again ⟨state.nodes ++ nodes, false⟩
  | .opener =>
    -- The only place where the parser looks beyond the token in front.
    let ahead ← peek 1
    match Assembly.closingWord? ahead.kind with
    | some word =>
      if word ∈ n.closers then
        let _ ← advance
        let ahead ← advance
        return .finished (state.nodes, some ahead)
      else throw (n.misplaced word ahead)
    | none =>
      let (node, strips) ← n |>.parseDirective
      return .again ⟨state.nodes ++ [node], strips⟩
  | _ => refuse n.expected t
partial_fixpoint

/-- Reads a directive and, if it is the head of a block, the rest of the block. -/
def parseDirective (n : Nesting) : Parser (Node × Bool) := do
  let opener ← advance
  let directive ← readDirective
  let closer ← expect .closer .directiveCloser
  match directive with
  | .comment text => return (.comment opener.position text, closer.trims)
  | .value path formatter => return (.value opener.position path formatter, closer.trims)
  | .call template root arguments =>
    return (.call opener.position template root arguments, closer.trims)
  | .ifHead condition => n |>.parseIf opener.position condition closer.trims
  | .forHead item index source =>
    n |>.parseBlock ⟨opener.position, .loop⟩ closer.trims
      (.forBlock opener.position item index source)
  | .withHead source name =>
    n |>.parseBlock ⟨opener.position, .binding⟩ closer.trims
      (.withBlock opener.position name source)
partial_fixpoint

def parseBlock (n : Nesting) (b : Enclosing) (strips : Bool) (make : List Node → Node) :
    Parser (Node × Bool) := do
  n.enter b.opener
  let body ← n |>.parseLast b strips
  let closer ← expect .closer .directiveCloser
  return (make body, closer.trims)
partial_fixpoint

/-- Reads the nodes of the last part of a block, and the word that ends the block. -/
def parseLast (n : Nesting) (b : Enclosing) (strips : Bool) : Parser (List Node) := do
  let (body, ending) ← n.within b |>.parseNodes ⟨[], strips⟩
  match ending with
  | none => throw (b.unclosed "end of input")
  | some _ => return body
partial_fixpoint

def parseIf (n : Nesting) (opener : Position) (condition : Path) (strips : Bool) :
    Parser (Node × Bool) := do
  n.enter opener
  let node ← n |>.parseBranches opener ⟨[], opener, condition, strips⟩
  let closer ← expect .closer .directiveCloser
  return (node, closer.trims)
partial_fixpoint

/-- Reads the branches of an if-block, the last part if there is one, and the word that ends the
block. -/
def parseBranches (n : Nesting) (opener : Position) (state : Branching) : Parser Node := do
  match ← n |>.branchTurn opener state with
  | .again state => n |>.parseBranches opener state
  | .finished node => return node
partial_fixpoint

def branchTurn (n : Nesting) (opener : Position) (state : Branching) :
    Parser (Turn Branching Node) := do
  let (body, ending) ← n.within ⟨opener, .branch⟩ |>.parseNodes ⟨[], state.strips⟩
  let branch : Branch := ⟨state.position, state.condition, body⟩
  match ending with
  | none => throw (Enclosing.unclosed ⟨opener, .branch⟩ "end of input")
  | some t =>
    if t.kind = .keyword .endifWord then return .finished (ifChain branch state.earlier none)
    else n |>.elseTurn opener branch state.earlier t.position
partial_fixpoint

/-- What stands behind `else`, the head of a further branch or the last part. -/
def elseTurn (n : Nesting) (opener : Position) (branch : Branch) (earlier : List Branch)
    (position : Position) : Parser (Turn Branching Node) := do
  if ← accept (.keyword .ifWord) then
    let next ← readBranching (branch :: earlier) position
    return .again next
  else
    let closer ← expect .closer .directiveCloser
    let body ← n |>.parseLast ⟨opener, .otherwise⟩ closer.trims
    return .finished (ifChain branch earlier (some body))
partial_fixpoint

end

end Nesting

def Parser.parse (limit : Int) (name : String) : Parser Template := do
  let (nodes, _) ← Nesting.parseNodes ⟨limit, []⟩ ⟨[], false⟩
  return ⟨name, nodes⟩

end TextTemplate
