import TextTemplate.Node.Directive
import TextTemplate.Text.CharClass

/-! Assembling nodes from tokens. The blocks that are open lie on a stack, and every step takes a
text or a whole directive: it adds a node to the innermost list, opens a block, or continues or
ends the innermost one. -/

namespace TextTemplate

structure Branch where
  position : Position
  condition : Path
  body : List Node

/-- What is known of an open block besides the nodes of its unfinished list: its head, and for an
if-block the branches that are complete, latest first. -/
inductive BlockState where
  | branch (position : Position) (condition : Path) (earlier : List Branch)
  | otherwise (last : Branch) (earlier : List Branch)
  | loop (item : String) (index : Option String) (source : Path)
  | binding (source : Path) (name : String)

namespace BlockState

def kind : BlockState → BlockKind
  | branch .. | otherwise .. => .ifBlock
  | loop .. => .forBlock
  | binding .. => .withBlock

end BlockState

/-- An open block, the position of the opener of its head, and the unfinished list around it,
latest node first. -/
structure OpenBlock where
  opener : Position
  state : BlockState
  around : List Node

def ifChain (last : Branch) (earlier : List Branch) (otherwise : Option (List Node)) : Node :=
  earlier.foldl (fun node b => .ifBlock b.position b.condition b.body (some [node]))
    (.ifBlock last.position last.condition last.body otherwise)

/-- The open blocks, innermost first, the nodes of the innermost unfinished list, latest first,
and whether the closer right before asked to strip the text behind it. -/
structure Assembly where
  blocks : List OpenBlock
  nodes : List Node
  strips : Bool

namespace Assembly

def start : Assembly := ⟨[], [], false⟩

def expected (a : Assembly) : Expected :=
  match a.blocks with
  | [] => .content
  | b :: _ => .blockCloser b.state.kind

def unclosed (b : OpenBlock) (found : String) : CompileError :=
  .parse ⟨.unclosed b.state.kind found, b.opener⟩

def add (a : Assembly) (node : Node) (closer : Token) : Assembly :=
  { a with nodes := node :: a.nodes, strips := closer.trims }

def beginsWithTrimmingOpener : TokenStream → Bool
  | .next t _ => t.kind == .opener && t.trims
  | _ => false

/-- A text is stripped where a delimiter with a dash stands beside it, and left out when nothing
remains. -/
def addText (a : Assembly) (t : Token) (following : TokenStream) : Assembly :=
  let text := if a.strips then trimStart t.value else t.value
  let text := if beginsWithTrimmingOpener following then trimEnd text else text
  { a with
    nodes := if text = "" then a.nodes else .text t.position text :: a.nodes
    strips := false }

def openBlock (limit : Int) (a : Assembly) (opener : Position) (state : BlockState)
    (closer : Token) : Attempt Assembly :=
  if limit ≤ a.blocks.length then .error (.tooDeep limit opener)
  else .ok ⟨⟨opener, state, a.nodes⟩ :: a.blocks, [], closer.trims⟩

def addDirective (limit : Int) (a : Assembly) (opener : Position) (d : Directive)
    (closer : Token) : Attempt Assembly :=
  match d with
  | .comment text => .ok (a.add (.comment opener text) closer)
  | .value path formatter => .ok (a.add (.value opener path formatter) closer)
  | .call template root arguments => .ok (a.add (.call opener template root arguments) closer)
  | .ifHead condition => a.openBlock limit opener (.branch opener condition []) closer
  | .forHead item index source => a.openBlock limit opener (.loop item index source) closer
  | .withHead source name => a.openBlock limit opener (.binding source name) closer

/-- The node of a block that ends behind `nodes`, which are given in their order. -/
def finished (b : OpenBlock) (nodes : List Node) : Node :=
  match b.state with
  | .branch position condition earlier => ifChain ⟨position, condition, nodes⟩ earlier none
  | .otherwise last earlier => ifChain last earlier (some nodes)
  | .loop item index source => .forBlock b.opener item index source nodes
  | .binding source name => .withBlock b.opener name source nodes

def closeBlock (a : Assembly) (b : OpenBlock) (outer : List OpenBlock) (s : TokenStream) :
    Attempt (Assembly × TokenStream) := do
  let (closer, s) ← s.expect .closer .directiveCloser
  return (⟨outer, finished b a.nodes.reverse :: b.around, closer.trims⟩, s)

/-- The branch behind `else`, which stands at `position`: a further condition or the last part. -/
def continueIf (b : OpenBlock) (outer : List OpenBlock) (done : Branch) (earlier : List Branch)
    (position : Position) (s : TokenStream) : Attempt (Assembly × TokenStream) := do
  let (chained, s) ← s.accept (.keyword .ifWord)
  if chained then
    let (condition, s) ← s.readPath
    let (closer, s) ← s.expect .closer .directiveCloser
    return (⟨{ b with state := .branch position condition (done :: earlier) } :: outer, [],
      closer.trims⟩, s)
  else
    let (closer, s) ← s.expect .closer .directiveCloser
    return (⟨{ b with state := .otherwise done earlier } :: outer, [], closer.trims⟩, s)

/-- A closing word that the innermost block cannot take is blamed on that block if one further out
could take it, and on itself otherwise. -/
def misplaced (a : Assembly) (word : Keyword) (t : Token) : CompileError :=
  match a.blocks with
  | b :: outer =>
    if outer.any (·.state.kind.closedBy word) then unclosed b t.describe
    else .parse ⟨.strayCloser a.expected t.value, t.position⟩
  | [] => .parse ⟨.strayCloser a.expected t.value, t.position⟩

def addCloser (a : Assembly) (word : Keyword) (t : Token) (s : TokenStream) :
    Attempt (Assembly × TokenStream) :=
  match a.blocks with
  | [] => .error (a.misplaced word t)
  | b :: outer =>
    match b.state, word with
    | .branch position condition earlier, .elseWord =>
      continueIf b outer ⟨position, condition, a.nodes.reverse⟩ earlier t.position s
    | state, word =>
      if word = state.kind.closer then a.closeBlock b outer s else .error (a.misplaced word t)

def stepDirective (limit : Int) (a : Assembly) (opener : Position) (s : TokenStream) :
    Attempt (Assembly × TokenStream) := do
  let (d, s) ← s.readDirective
  let (closer, s) ← s.expect .closer .directiveCloser
  let a ← a.addDirective limit opener d closer
  return (a, s)

def closingWord? : TokenKind → Option Keyword
  | .keyword k => if k.isCloser then some k else none
  | _ => none

def stepOpener (limit : Int) (a : Assembly) (opener : Position) :
    TokenStream → Attempt (Assembly × TokenStream)
  | .next t rest =>
    match closingWord? t.kind with
    | some word => a.addCloser word t rest
    | none => a.stepDirective limit opener (.next t rest)
  | s => a.stepDirective limit opener s

def step (limit : Int) (a : Assembly) (t : Token) (rest : TokenStream) :
    Attempt (Assembly × TokenStream) :=
  match t.kind with
  | .text => .ok (a.addText t rest, rest)
  | .opener => a.stepOpener limit t.position rest
  | _ => .error (TokenStream.unexpected a.expected t)

theorem size_lt_of_stepDirective {limit : Int} {a a' : Assembly} {opener : Position}
    {s r : TokenStream} (h : a.stepDirective limit opener s = .ok (a', r)) : r.size < s.size := by
  obtain ⟨⟨d, s1⟩, h1, h⟩ := Attempt.bind_eq_ok.1 h
  obtain ⟨⟨closer, s2⟩, h2, h⟩ := Attempt.bind_eq_ok.1 h
  obtain ⟨a2, -, h⟩ := Attempt.bind_eq_ok.1 h
  obtain ⟨-, rfl⟩ := Prod.mk.inj (Attempt.pure_eq_ok.1 h)
  exact Nat.lt_trans (TokenStream.size_lt_of_expect h2) (TokenStream.size_lt_of_readDirective h1)

theorem size_lt_of_closeBlock {a a' : Assembly} {b : OpenBlock} {outer : List OpenBlock}
    {s r : TokenStream} (h : a.closeBlock b outer s = .ok (a', r)) : r.size < s.size := by
  obtain ⟨⟨closer, s1⟩, h1, h⟩ := Attempt.bind_eq_ok.1 h
  obtain ⟨-, rfl⟩ := Prod.mk.inj (Attempt.pure_eq_ok.1 h)
  exact TokenStream.size_lt_of_expect h1

theorem size_lt_of_continueIf {a' : Assembly} {b : OpenBlock} {outer : List OpenBlock}
    {done : Branch} {earlier : List Branch} {position : Position} {s r : TokenStream}
    (h : continueIf b outer done earlier position s = .ok (a', r)) : r.size < s.size := by
  obtain ⟨⟨chained, s1⟩, h1, h⟩ := Attempt.bind_eq_ok.1 h
  have hs1 := TokenStream.size_le_of_accept h1
  dsimp only at h
  split at h
  · obtain ⟨⟨condition, s2⟩, h2, h⟩ := Attempt.bind_eq_ok.1 h
    obtain ⟨⟨closer, s3⟩, h3, h⟩ := Attempt.bind_eq_ok.1 h
    obtain ⟨-, rfl⟩ := Prod.mk.inj (Attempt.pure_eq_ok.1 h)
    exact Nat.lt_of_lt_of_le (Nat.lt_trans (TokenStream.size_lt_of_expect h3)
      (TokenStream.size_lt_of_readPath h2)) hs1
  · obtain ⟨⟨closer, s2⟩, h2, h⟩ := Attempt.bind_eq_ok.1 h
    obtain ⟨-, rfl⟩ := Prod.mk.inj (Attempt.pure_eq_ok.1 h)
    exact Nat.lt_of_lt_of_le (TokenStream.size_lt_of_expect h2) hs1

theorem size_lt_of_addCloser {a a' : Assembly} {word : Keyword} {t : Token} {s r : TokenStream}
    (h : a.addCloser word t s = .ok (a', r)) : r.size < s.size := by
  unfold addCloser at h
  split at h
  · cases h
  · split at h
    · exact size_lt_of_continueIf h
    · split at h
      · exact size_lt_of_closeBlock h
      · cases h

theorem size_le_of_step {limit : Int} {a a' : Assembly} {t : Token} {rest r : TokenStream}
    (h : a.step limit t rest = .ok (a', r)) : r.size ≤ rest.size := by
  unfold step at h
  split at h
  · simp at h; simp [← h.2]
  · cases rest with
    | next t' rest' =>
      simp only [stepOpener] at h
      split at h
      · exact Nat.le_succ_of_le (Nat.le_of_lt (size_lt_of_addCloser h))
      · exact Nat.le_of_lt (size_lt_of_stepDirective h)
    | ended position => exact Nat.le_of_lt (size_lt_of_stepDirective h)
    | broken e => exact Nat.le_of_lt (size_lt_of_stepDirective h)
  · cases h

def finish (a : Assembly) : Attempt (List Node) :=
  match a.blocks with
  | [] => .ok a.nodes.reverse
  | b :: _ => .error (unclosed b "end of input")

def run (limit : Int) (a : Assembly) (s : TokenStream) : Attempt (List Node) :=
  match s with
  | .broken e => .error (.lex e)
  | .ended _ => a.finish
  | .next t rest =>
    match _h : a.step limit t rest with
    | .error e => .error e
    | .ok (a', s') => a'.run limit s'
termination_by s.size
decreasing_by exact Nat.lt_succ_of_le (size_le_of_step _h)

end Assembly

end TextTemplate
