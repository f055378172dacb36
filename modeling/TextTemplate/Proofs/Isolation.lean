import Mathlib
import TextTemplate.Proofs.Rendering

/-! Calls are isolated from where they are made. A called template sees its root and its named
arguments; what else the caller has bound, and in which scopes, changes neither what the call adds
to the output nor how it ends. -/

namespace TextTemplate

namespace Context

/-- What a call takes for its root: the value of its path, or the current value without one. -/
def rootOf (c : Context) : Option Path → Resolving Value
  | some path => c.resolve path
  | none => .ok c.current

/-- The two contexts have the same values to hand over, however their scopes are made up. -/
structure AgreeOn (c c' : Context) (root : Option Path) (arguments : List (String × Path)) :
    Prop where
  root_eq : c.rootOf root = c'.rootOf root
  argument_eq : ∀ argument ∈ arguments, c.resolve argument.2 = c'.resolve argument.2

end Context

namespace Environment

variable {ρ ρ' : Environment}

theorem find_congr {path : Path} (h : ρ.resolve path = ρ'.resolve path) (name : String)
    (position : Position) : ρ.find name position path = ρ'.find name position path := by
  rw [find, find, h]

theorem findAll_congr {arguments : List (String × Path)}
    (h : ∀ argument ∈ arguments, ρ.resolve argument.2 = ρ'.resolve argument.2) (name : String)
    (position : Position) :
    ρ.findAll name position arguments = ρ'.findAll name position arguments := by
  induction arguments with
  | nil => rfl
  | cons argument rest ih =>
    have hfirst := find_congr (h argument List.mem_cons_self) name position
    have hrest := ih fun a ha => h a (List.mem_cons_of_mem argument ha)
    simp only [findAll] at hrest
    simp only [findAll, List.mapM_cons, hfirst, hrest]

/-- The environment of a callee is made of what the call hands over and of nothing else. -/
theorem callee_congr {c c' : Context} {root : Option Path} {arguments : List (String × Path)}
    (h : c.AgreeOn c' root arguments) (name : String) (position : Position) :
    c.environment.callee name position root arguments =
      c'.environment.callee name position root arguments := by
  have hroot : c.environment.findRoot name position root =
      c'.environment.findRoot name position root := by
    have heq := h.root_eq
    cases root with
    | none =>
      have hcurrent : c.current = c'.current := Except.ok.inj heq
      exact congrArg Except.ok hcurrent
    | some path =>
      simp only [Context.rootOf, Context.resolve_eq_environment] at heq
      exact find_congr heq name position
  have harguments : c.environment.findAll name position arguments =
      c'.environment.findAll name position arguments := by
    apply findAll_congr
    intro argument hargument
    have heq := h.argument_eq argument hargument
    rwa [Context.resolve_eq_environment, Context.resolve_eq_environment] at heq
  rw [callee, callee, hroot, harguments]

end Environment

namespace RenderM

open Meaning

theorem nodeMeaning_call_congr {c c' : Context} {root : Option Path}
    {arguments : List (String × Path)} (h : c.AgreeOn c' root arguments) (setup : Setup)
    (limit : Int) (levels : Nat) (name : String) (position : Position) (template : String) :
    nodeMeaning setup limit levels name c.environment (.call position template root arguments) =
      nodeMeaning setup limit levels name c'.environment
        (.call position template root arguments) := by
  cases levels with
  | zero => rfl
  | succ levels =>
    have hcallee := Environment.callee_congr h name position
    rw [nodeMeaning, nodeMeaning, hcallee]

/-- In two sessions of the same depth whose contexts hand over the same values, a call adds the
same text and ends in the same way, and each session keeps its own context and depth. Once the
template and the values are found, that is what the template's nodes mean one level down, where
nothing is bound but the named arguments. -/
theorem means_call_of_agreeOn (setup : Setup) {levels : Nat} (name : String)
    (position : Position) (template : String) {root : Option Path}
    {arguments : List (String × Path)} {s s' : Session} (hlevels : LevelsLeft levels s)
    (hdepth : s'.depth = s.depth) (hagree : s.context.AgreeOn s'.context root arguments) :
    ∃ m : Meaning,
      Means (node setup levels name (.call position template root arguments)) s m ∧
      Means (node setup levels name (.call position template root arguments)) s' m ∧
      ∀ inner t current bindings, levels = inner + 1 →
        setup.library.bind (·.get? template) = some t →
        s.context.environment.findRoot name position root = .ok current →
        s.context.environment.findAll name position arguments = .ok bindings →
        m = concat (t.nodes.map (nodeMeaning setup s.depth.limit inner t.name
          ((Environment.root current).bindAll bindings))) := by
  have hlevels' : LevelsLeft levels s' := by
    rw [LevelsLeft, hdepth]
    exact hlevels
  have hmeans := means_node setup levels name (.call position template root arguments) s hlevels
  have hmeans' := means_node setup levels name (.call position template root arguments) s' hlevels'
  rw [hdepth, ← nodeMeaning_call_congr hagree] at hmeans'
  refine ⟨_, hmeans, hmeans', ?_⟩
  rintro inner t current bindings rfl htemplate hroot hbindings
  have hfound : Environment.findTemplate setup name position template = .ok t := by
    rw [Environment.findTemplate, htemplate]
  rw [nodeMeaning, hfound, Environment.callee, hroot, hbindings]
  rfl

def labelSetup : Setup :=
  ⟨.standard .html, some [("label", ⟨"label", [.value ⟨0, 1, 1⟩ ⟨["y"], false⟩ none,
    .value ⟨7, 1, 8⟩ ⟨["z"], false⟩ none]⟩)], true, "default"⟩

def labelCall : Node :=
  .call ⟨0, 1, 1⟩ "label" none [("y", ⟨["x"], false⟩)]

def labelCaller : Session :=
  ⟨⟨.absent, [[("x", .text "a"), ("z", .text "b")]]⟩, ⟨3, 1⟩, []⟩

def otherLabelCaller : Session :=
  ⟨⟨.absent, [[], [("x", .text "a")]]⟩, ⟨3, 1⟩, []⟩

/-- One caller has bound `z` and the other has not. The label asks for it and does not see it. -/
theorem means_call_of_agreeOn_label :
    LevelsLeft 2 labelCaller ∧ otherLabelCaller.depth = labelCaller.depth ∧
    labelCaller.context.AgreeOn otherLabelCaller.context none [("y", ⟨["x"], false⟩)] ∧
    ∃ m : Meaning,
      Means (node labelSetup 2 "t" labelCall) labelCaller m ∧
      Means (node labelSetup 2 "t" labelCall) otherLabelCaller m ∧
      m = ⟨"a", some (.error
        ⟨.pathNotFound ⟨["z"], false⟩ (.onAbsent "z"), ⟨7, 1, 8⟩, "label"⟩)⟩ := by
  have hlevels : LevelsLeft 2 labelCaller := rfl
  have hdepth : otherLabelCaller.depth = labelCaller.depth := rfl
  have hagree : labelCaller.context.AgreeOn otherLabelCaller.context none
      [("y", ⟨["x"], false⟩)] := by
    refine ⟨rfl, ?_⟩
    intro argument hargument
    obtain rfl := List.mem_singleton.mp hargument
    cbv
  obtain ⟨m, hmeans, hmeans', hm⟩ :=
    means_call_of_agreeOn labelSetup "t" ⟨0, 1, 1⟩ "label" hlevels hdepth hagree
  have hcallee := hm 1 ⟨"label", [.value ⟨0, 1, 1⟩ ⟨["y"], false⟩ none,
    .value ⟨7, 1, 8⟩ ⟨["z"], false⟩ none]⟩ .absent [("y", .text "a")] rfl rfl rfl (by cbv)
  refine ⟨hlevels, hdepth, hagree, m, hmeans, hmeans', ?_⟩
  rw [hcallee]
  cbv

end RenderM

end TextTemplate
