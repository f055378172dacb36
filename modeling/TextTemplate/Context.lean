import TextTemplate.Value

/-! What a template sees while it is rendered: the bindings of the blocks around it, innermost
first, and a current value. How deep blocks and calls are nested is counted for a whole family of
contexts together. -/

namespace TextTemplate

abbrev Scope := NameMap Value

structure Context where
  current : Value
  scopes : List Scope

namespace Context

def root (current : Value) : Context := ⟨current, []⟩

/-- The binding of the innermost scope that has the name. -/
def lookup? (c : Context) (name : String) : Option Value :=
  c.scopes.findSome? fun scope => scope.get? name

def push (c : Context) (bindings : List (String × Value)) : Context :=
  { c with scopes := NameMap.ofList bindings :: c.scopes }

def pop? (c : Context) : Option Context :=
  match c.scopes with
  | [] => none
  | _ :: outer => some { c with scopes := outer }

/-- The context of a called template, which sees none of its caller's bindings. -/
def called (current : Value) (bindings : List (String × Value)) : Context :=
  if bindings.isEmpty then root current else (root current).push bindings

end Context

structure Depth where
  limit : Int
  current : Int
  deriving DecidableEq

namespace Depth

def start (limit : Int) : Depth := ⟨limit, 0⟩

/-- One level down, unless the limit is reached. -/
def enter? (d : Depth) : Option Depth :=
  if d.limit ≤ d.current then none else some { d with current := d.current + 1 }

def leave (d : Depth) : Depth :=
  { d with current := d.current - 1 }

end Depth

/-- Contexts that count their depth together, in the order in which they were made. -/
structure ContextFamily where
  contexts : List Context
  depth : Depth

namespace ContextFamily

def start (current : Value) (limit : Int) : ContextFamily :=
  ⟨[.root current], .start limit⟩

def push (f : ContextFamily) (member : Nat) (bindings : List (String × Value)) : ContextFamily :=
  { f with contexts := f.contexts.modify member (·.push bindings) }

/-- Takes the innermost scope off a member that has one. -/
def pop? (f : ContextFamily) (member : Nat) : Option ContextFamily := do
  let c ← f.contexts[member]?
  let c ← c.pop?
  return { f with contexts := f.contexts.set member c }

def enter? (f : ContextFamily) : Option ContextFamily :=
  f.depth.enter?.map fun depth => { f with depth }

def leave (f : ContextFamily) : ContextFamily :=
  { f with depth := f.depth.leave }

def addCalled (f : ContextFamily) (current : Value) (bindings : List (String × Value)) :
    ContextFamily :=
  { f with contexts := f.contexts ++ [.called current bindings] }

end ContextFamily

end TextTemplate
