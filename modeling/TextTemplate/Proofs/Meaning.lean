import TextTemplate.Render

/-! What a template means, without a state: in an environment that never changes, a list of nodes
means a text and, if something stops it, the interruption behind that text. -/

namespace TextTemplate

/-- What a node sees: the current value, and the value that each bound name stands for. -/
structure Environment where
  current : Value
  bound : String → Option Value

abbrev Answer := Except Interruption

namespace Environment

def root (current : Value) : Environment := ⟨current, fun _ => none⟩

def bind (ρ : Environment) (name : String) (v : Value) : Environment :=
  { ρ with bound := fun key => if key = name then some v else ρ.bound key }

/-- Binds names one after the other, so that the last binding of a name counts. -/
def bindAll (ρ : Environment) (bindings : List (String × Value)) : Environment :=
  bindings.foldl (fun ρ binding => ρ.bind binding.1 binding.2) ρ

/-- The environment of one turn of a loop. The index is bound last, unless its name is empty. -/
def turn (ρ : Environment) (item : String) (index : Option String) (v : Value) (n : Nat) :
    Environment :=
  match index with
  | none => ρ.bind item v
  | some name => if name = "" then ρ.bind item v else (ρ.bind item v).bind name (.integer n)

/-- A bound first segment starts the path at its value; every other path starts at the current
value. -/
def resolve (ρ : Environment) (p : Path) : Resolving Value :=
  match p.rootName?.bind fun name => (ρ.bound name).map fun v => (name, v) with
  | some (name, v) => v.steps name (p.segments.drop 1)
  | none => ρ.current.steps "@" p.segments

def find (ρ : Environment) (name : String) (position : Position) (path : Path) : Answer Value :=
  match ρ.resolve path with
  | .ok v => .ok v
  | .error (.path fault) => .error (.error ⟨.pathNotFound path fault.fault, position, name⟩)
  | .error (.integer fault) => .error (.integer fault)

/-- The value of a condition: what cannot be found is absent, unless conditions are strict. -/
def findCondition (ρ : Environment) (setup : Setup) (name : String) (position : Position)
    (path : Path) : Answer Value :=
  match setup.strictConditions, ρ.resolve path with
  | false, .error (.path _) => .ok .absent
  | _, _ => ρ.find name position path

def findAll (ρ : Environment) (name : String) (position : Position)
    (arguments : List (String × Path)) : Answer (List (String × Value)) :=
  arguments.mapM fun argument => (ρ.find name position argument.2).map fun v => (argument.1, v)

def findItems (ρ : Environment) (name : String) (position : Position) (source : Path) :
    Answer (List Value) := do
  match ← ρ.find name position source with
  | .sequence items => return items
  | v => throw (.error ⟨.notIterable source v.kind, position, name⟩)

/-- The nodes behind the first condition of an `else if` chain that holds. -/
def findBranch (ρ : Environment) (setup : Setup) (name : String) (position : Position)
    (path : Path) (body : List Node) (otherwise : Option (List Node)) : Answer (List Node) := do
  let v ← ρ.findCondition setup name position path
  if v.isTruthy then return body
  else
    match otherwise with
    | some [.ifBlock position path body otherwise] =>
      ρ.findBranch setup name position path body otherwise
    | otherwise => return otherwise.getD []

def format (ρ : Environment) (setup : Setup) (name : String) (position : Position) (path : Path)
    (formatter : Option FormatterCall) : Answer String := do
  let fail (fault : RenderFault) : Answer String := throw (.error ⟨fault, position, name⟩)
  let call := formatter.getD ⟨setup.defaultFormatter, []⟩
  let v ← ρ.find name position path
  match setup.formatters.get? call.name with
  | none => fail (.unknownFormatter call.name)
  | some f =>
    match f.signature.bind (·.fault? call.arguments.length) with
    | some fault => fail (.badArguments call.name call.arguments.length fault)
    | none =>
      match f.run v call.arguments with
      | .ok (.text text) => return text
      | .ok (.other datum) => fail (.notText call.name datum.typeName)
      | .error (.fault fault) => fail (.formatFailed call.name path fault)
      | .error (.integer fault) => throw (.integer fault)
      | .error (.crash reason) => throw (.crash reason)

def findTemplate (setup : Setup) (name : String) (position : Position) (template : String) :
    Answer Template :=
  match setup.library.bind (·.get? template) with
  | some t => .ok t
  | none => .error (.error ⟨.unknownTemplate template, position, name⟩)

def findRoot (ρ : Environment) (name : String) (position : Position) :
    Option Path → Answer Value
  | some path => ρ.find name position path
  | none => .ok ρ.current

/-- The environment of a called template: its root, or the caller's current value, and nothing
but the named arguments. -/
def callee (ρ : Environment) (name : String) (position : Position) (root : Option Path)
    (arguments : List (String × Path)) : Answer Environment := do
  let current ← ρ.findRoot name position root
  let bindings ← ρ.findAll name position arguments
  return (Environment.root current).bindAll bindings

end Environment

/-- A text, and what stopped it. -/
structure Meaning where
  text : String
  interruption : Option Interruption
  deriving DecidableEq

namespace Meaning

def saying (text : String) : Meaning := ⟨text, none⟩

def stops (interruption : Interruption) : Meaning := ⟨"", some interruption⟩

def append (m n : Meaning) : Meaning :=
  match m.interruption with
  | none => ⟨m.text ++ n.text, n.interruption⟩
  | some _ => m

def concat (ms : List Meaning) : Meaning :=
  ms.foldr append (saying "")

def given {α : Type} (answer : Answer α) (m : α → Meaning) : Meaning :=
  match answer with
  | .ok a => m a
  | .error interruption => stops interruption

theorem concat_cons (m : Meaning) (ms : List Meaning) :
    concat (m :: ms) = m.append (concat ms) := rfl

theorem append_assoc (l m n : Meaning) : (l.append m).append n = l.append (m.append n) := by
  obtain ⟨text, _ | interruption⟩ := l
  · obtain ⟨text', _ | interruption⟩ := m
    · simp [append, String.append_assoc]
    · rfl
  · rfl

theorem append_saying_empty (m : Meaning) : m.append (saying "") = m := by
  obtain ⟨text, _ | interruption⟩ := m
  · simp [append, saying]
  · rfl

theorem concat_singleton (m : Meaning) : concat [m] = m :=
  m.append_saying_empty

theorem concat_append (ms ns : List Meaning) :
    concat (ms ++ ns) = (concat ms).append (concat ns) := by
  induction ms with
  | nil => simp [concat, append, saying]
  | cons m ms ih =>
    rw [List.cons_append, concat_cons, concat_cons, ih, append_assoc]

end Meaning

open Meaning Environment

/-- The meaning of a node of the named template with a number of levels left. A block or a call
takes one of them before anything else. -/
def nodeMeaning (setup : Setup) (limit : Int) : Nat → String → Environment → Node → Meaning
  | _, _, _, .text _ text => saying text
  | _, _, _, .comment _ _ => saying ""
  | _, name, ρ, .value position path formatter =>
    given (ρ.format setup name position path formatter) saying
  | 0, name, _, block => stops (.tooDeep limit block.position name)
  | levels + 1, name, ρ, .ifBlock position path body otherwise =>
    given (ρ.findBranch setup name position path body otherwise) fun nodes =>
      concat (nodes.map (nodeMeaning setup limit levels name ρ))
  | levels + 1, name, ρ, .forBlock position item index source body =>
    given (ρ.findItems name position source) fun items =>
      concat (items.zipIdx.map fun (v, n) =>
        concat (body.map (nodeMeaning setup limit levels name (ρ.turn item index v n))))
  | levels + 1, name, ρ, .withBlock position bound source body =>
    given (ρ.find name position source) fun v =>
      concat (body.map (nodeMeaning setup limit levels name (ρ.bind bound v)))
  | levels + 1, name, ρ, .call position template root arguments =>
    given (findTemplate setup name position template) fun t =>
      given (ρ.callee name position root arguments) fun ρ =>
        concat (t.nodes.map (nodeMeaning setup limit levels t.name ρ))

def Template.meaning (t : Template) (setup : Setup) (limit : Int) (root : Value) : Meaning :=
  concat (t.nodes.map (nodeMeaning setup limit limit.toNat t.name (.root root)))

end TextTemplate
