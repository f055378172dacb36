import TextTemplate.Formatter.Registry
import TextTemplate.Compile
import TextTemplate.RenderError

/-! Rendering a template: a walk over its nodes that appends chunks of text. The walk carries one
context with its scopes and one count of depth; blocks push a scope and go a level down, and undo
both on every way out. -/

namespace TextTemplate

/-- What a rendering draws on and never changes. Without a library no template can be called. -/
structure Setup where
  formatters : FormatterRegistry
  library : Option Library
  strictConditions : Bool
  defaultFormatter : String

/-- The state of a rendering: its context, its depth, and the chunks so far, latest first. -/
structure Session where
  context : Context
  depth : Depth
  output : List String

abbrev RenderM := ExceptT Interruption (StateM Session)

namespace RenderM

def emit (chunk : String) : RenderM Unit :=
  modify fun s => { s with output := chunk :: s.output }

def fail {α : Type} (name : String) (position : Position) (fault : RenderFault) : RenderM α :=
  throw (.error ⟨fault, position, name⟩)

/-- Runs an action one level down, if the limit allows it, and comes back up. -/
def nested {α : Type} (name : String) (position : Position) (action : RenderM α) : RenderM α :=
  ExceptT.mk fun s =>
    match s.depth.enter? with
    | none => (.error (.tooDeep s.depth.limit position name), s)
    | some depth =>
      let (result, s') := action.run { s with depth }
      (result, { s' with depth := s'.depth.leave })

/-- Runs an action with further bindings in scope, and takes them off again. -/
def binding {α : Type} (bindings : List (String × Value)) (action : RenderM α) : RenderM α :=
  ExceptT.mk fun s =>
    let (result, s') := action.run { s with context := s.context.push bindings }
    (result, { s' with context := s'.context.pop?.getD s'.context })

/-- Runs an action in a context of its own, and returns to the one before. -/
def inside {α : Type} (context : Context) (action : RenderM α) : RenderM α :=
  ExceptT.mk fun s =>
    let (result, s') := action.run { s with context }
    (result, { s' with context := s.context })

def resolve (name : String) (position : Position) (path : Path) : RenderM Value := do
  match (← get).context.resolve path with
  | .ok v => return v
  | .error (.path fault) => fail name position (.pathNotFound path fault.fault)
  | .error (.integer fault) => throw (.integer fault)

/-- The value of a condition. One that cannot be resolved is absent, unless conditions are
strict. -/
def condition (setup : Setup) (name : String) (position : Position) (path : Path) :
    RenderM Value := do
  if setup.strictConditions then resolve name position path
  else
    match (← get).context.resolve path with
    | .ok v => return v
    | .error (.path _) => return .absent
    | .error (.integer fault) => throw (.integer fault)

def applyFormatter (name : String) (position : Position) (path : Path) (call : FormatterCall)
    (f : Formatter) (v : Value) : RenderM String :=
  match f.run v call.arguments with
  | .ok (.text text) => return text
  | .ok (.other datum) => fail name position (.notText call.name datum.typeName)
  | .error (.fault fault) => fail name position (.formatFailed call.name path fault)
  | .error (.integer fault) => throw (.integer fault)
  | .error (.crash reason) => throw (.crash reason)

def format (setup : Setup) (name : String) (position : Position) (path : Path)
    (formatter : Option FormatterCall) : RenderM String := do
  let v ← resolve name position path
  let call := formatter.getD ⟨setup.defaultFormatter, []⟩
  match setup.formatters.get? call.name with
  | none => fail name position (.unknownFormatter call.name)
  | some f =>
    match f.signature.bind (·.fault? call.arguments.length) with
    | some fault => fail name position (.badArguments call.name call.arguments.length fault)
    | none => applyFormatter name position path call f v

/-- The nodes that an if-block renders. The conditions of a chain are tried in their order. -/
def selectBranch (setup : Setup) (name : String) (position : Position) (path : Path)
    (body : List Node) (otherwise : Option (List Node)) : RenderM (List Node) := do
  if (← condition setup name position path).isTruthy then return body
  else
    match otherwise with
    | none => return []
    | some [.ifBlock position path body otherwise] =>
      selectBranch setup name position path body otherwise
    | some nodes => return nodes

def resolveArguments (name : String) (position : Position) (arguments : List (String × Path)) :
    RenderM (List (String × Value)) :=
  arguments.mapM fun (key, path) => do return (key, ← resolve name position path)

/-- The bindings of one turn of a loop. The index wins where both names are the same; an empty
name for it counts as none. -/
def turnBindings (item : String) (index : Option String) (turn : Value × Nat) :
    List (String × Value) :=
  (item, turn.1) ::
    (index.filter (· ≠ "")).toList.map fun name => (name, Value.integer turn.2)

def items (name : String) (position : Position) (source : Path) : RenderM (List Value) := do
  match ← resolve name position source with
  | .sequence items => return items
  | v => fail name position (.notIterable source v.kind)

def called (setup : Setup) (name : String) (position : Position) (template : String) :
    RenderM Template :=
  match setup.library.bind (·.get? template) with
  | some t => return t
  | none => fail name position (.unknownTemplate template)

/-- The current value of a called template, which is its caller's where no path is given. -/
def calledRoot (name : String) (position : Position) : Option Path → RenderM Value
  | some path => resolve name position path
  | none => do return (← get).context.current

/-- Renders a node of the template called `name` with at most `levels` levels left. -/
def node (setup : Setup) : Nat → String → Node → RenderM Unit
  | _, _, .text _ text => emit text
  | _, _, .comment _ _ => return
  | _, name, .value position path formatter => do
    emit (← format setup name position path formatter)
  | 0, name, block => do
    throw (.tooDeep (← get).depth.limit block.position name)
  | levels + 1, name, .ifBlock position path body otherwise =>
    nested name position do
      let branch ← selectBranch setup name position path body otherwise
      branch.forM (node setup levels name)
  | levels + 1, name, .forBlock position item index source body =>
    nested name position do
      let items ← items name position source
      items.zipIdx.forM fun turn =>
        binding (turnBindings item index turn) (body.forM (node setup levels name))
  | levels + 1, name, .withBlock position bound source body =>
    nested name position do
      let v ← resolve name position source
      binding [(bound, v)] (body.forM (node setup levels name))
  | levels + 1, name, .call position template root arguments =>
    nested name position do
      let t ← called setup name position template
      let current ← calledRoot name position root
      let bindings ← resolveArguments name position arguments
      inside (.called current bindings) (t.nodes.forM (node setup levels t.name))

end RenderM

/-- The chunks of text that a rendering gave, and what ended it early. -/
structure Rendering where
  chunks : List String
  interruption : Option Interruption

namespace Rendering

def text (r : Rendering) : String :=
  String.join r.chunks

end Rendering

namespace Template

def render (t : Template) (setup : Setup) (limit : Int) (root : Value) : Rendering :=
  let (result, s) :=
    (t.nodes.forM (RenderM.node setup limit.toNat t.name)).run ⟨.root root, .start limit, []⟩
  match result with
  | .ok () => ⟨s.output.reverse, none⟩
  | .error interruption => ⟨s.output.reverse, some interruption⟩

def renderedEntry (t : Template) (r : Rendering) : LogEntry :=
  .debug s!"Rendered template '{t.name}' -> {r.chunks.length} chunks"

end Template

end TextTemplate
