import Mathlib
import TextTemplate.Proofs.Escaping
import TextTemplate.Proofs.LookUp

/-! Where the errors of a rendering are located: at a node that can have the fault, in the template
whose nodes are being rendered. The tasks of a rendering make a stack of templates, each called by
the one below it. -/

namespace TextTemplate

/-- The paths that a node cannot do without. -/
def Node.neededPaths : Node → List Path
  | .value _ path _ => [path]
  | .forBlock _ _ _ source _ | .withBlock _ _ source _ => [source]
  | .call _ _ root arguments => root.toList ++ arguments.map Prod.snd
  | _ => []

/-- The faults that a node has of itself, in what it sees. A condition that is not found is a fault
only where conditions are strict. -/
inductive Node.HasFault (setup : Setup) (ρ : Environment) : Node → RenderFault → Prop
  | path {n : Node} {path : Path} {f : PathFault} (hpath : path ∈ n.neededPaths)
      (h : ρ.resolve path = .error (.path f)) : HasFault setup ρ n (.pathNotFound path f.fault)
  | condition {position : Position} {condition : Path} {body : List Node}
      {otherwise : Option (List Node)} {f : PathFault} (hstrict : setup.strictConditions = true)
      (h : ρ.resolve condition = .error (.path f)) :
      HasFault setup ρ (.ifBlock position condition body otherwise)
        (.pathNotFound condition f.fault)
  | items {position : Position} {item : String} {index : Option String} {source : Path}
      {body : List Node} {v : Value} (h : ρ.resolve source = .ok v)
      (hkind : v.kind ≠ .sequence) :
      HasFault setup ρ (.forBlock position item index source body) (.notIterable source v.kind)
  | unknownFormatter {position : Position} {path : Path} {formatter : Option FormatterCall}
      {call : FormatterCall} (hcall : formatter.getD ⟨setup.defaultFormatter, []⟩ = call)
      (h : setup.formatters.get? call.name = none) :
      HasFault setup ρ (.value position path formatter) (.unknownFormatter call.name)
  | badArguments {position : Position} {path : Path} {formatter : Option FormatterCall}
      {call : FormatterCall} {f : Formatter} {fault : ArgumentFault}
      (hcall : formatter.getD ⟨setup.defaultFormatter, []⟩ = call)
      (hf : setup.formatters.get? call.name = some f)
      (h : f.signature.bind (·.fault? call.arguments.length) = some fault) :
      HasFault setup ρ (.value position path formatter)
        (.badArguments call.name call.arguments.length fault)
  | formatFailed {position : Position} {path : Path} {formatter : Option FormatterCall}
      {call : FormatterCall} {f : Formatter} {v : Value} {fault : FormatFault}
      (hcall : formatter.getD ⟨setup.defaultFormatter, []⟩ = call)
      (hf : setup.formatters.get? call.name = some f) (hv : ρ.resolve path = .ok v)
      (h : f.run v call.arguments = .error (.fault fault)) :
      HasFault setup ρ (.value position path formatter) (.formatFailed call.name path fault)
  | notText {position : Position} {path : Path} {formatter : Option FormatterCall}
      {call : FormatterCall} {f : Formatter} {v : Value} {datum : Datum}
      (hcall : formatter.getD ⟨setup.defaultFormatter, []⟩ = call)
      (hf : setup.formatters.get? call.name = some f) (hv : ρ.resolve path = .ok v)
      (h : f.run v call.arguments = .ok (.other datum)) :
      HasFault setup ρ (.value position path formatter) (.notText call.name datum.typeName)
  | unknownTemplate {position : Position} {template : String} {root : Option Path}
      {arguments : List (String × Path)} (h : setup.template? template = none) :
      HasFault setup ρ (.call position template root arguments) (.unknownTemplate template)
  | depthExceeded {block : Node} {limit : Int} (h : block.isLeaf = false) :
      HasFault setup ρ block (.depthExceeded limit)

/-- The error is located at one of the nodes, which belong to the named template, and is a fault of
that node. -/
def RenderError.IsAt (e : RenderError) (setup : Setup) (ρ : Environment) (name : String)
    (nodes : List Node) : Prop :=
  ∃ n ∈ nodes, e.templateName = name ∧ e.position = n.position ∧ n.HasFault setup ρ e.fault

theorem RenderError.IsAt.mono {e : RenderError} {setup : Setup} {ρ : Environment} {name : String}
    {nodes nodes' : List Node} (h : e.IsAt setup ρ name nodes) (hnodes : nodes ⊆ nodes') :
    e.IsAt setup ρ name nodes' := by
  obtain ⟨n, hn, hsite⟩ := h
  exact ⟨n, hnodes hn, hsite⟩

namespace Environment

variable {ρ : Environment} {setup : Setup} {name : String} {position : Position} {e : RenderError}

theorem failsBy_find_error {path : Path} :
    FailsBy (· = .error e) (ρ.find name position path) ↔
      ∃ f, ρ.resolve path = .error (.path f) ∧
        e = ⟨.pathNotFound path f.fault, position, name⟩ := by
  unfold find
  cases ρ.resolve path with
  | ok v => simp
  | error fault => cases fault <;> simp [eq_comm]

theorem isAt_of_find {n : Node} {path : Path} (hpath : path ∈ n.neededPaths)
    (h : FailsBy (· = .error e) (ρ.find name n.position path)) : e.IsAt setup ρ name [n] := by
  obtain ⟨f, hf, rfl⟩ := failsBy_find_error.mp h
  exact ⟨n, List.mem_singleton_self n, rfl, rfl, .path hpath hf⟩

theorem isAt_of_findBranch {path : Path} {body : List Node} {otherwise : Option (List Node)}
    (h : FailsBy (· = .error e) (ρ.findBranch setup name position path body otherwise)) :
    e.IsAt setup ρ name (Node.ifBlock position path body otherwise).preorder := by
  fun_induction findBranch ρ setup name position path body otherwise with
  | case1 position path body otherwise ih =>
    rw [failsBy_bind] at h
    rcases h with hcondition | ⟨v, -, hrest⟩
    · have hfind : setup.strictConditions = true ∧
          FailsBy (· = .error e) (ρ.find name position path) := by
        unfold findCondition at hcondition
        split at hcondition
        · exact absurd hcondition (not_failsBy_ok _)
        · rename_i hstrict
          cases hs : setup.strictConditions with
          | true => exact ⟨rfl, hcondition⟩
          | false =>
            obtain ⟨f, hf, -⟩ := failsBy_find_error.mp hcondition
            exact absurd hf (hstrict f hs)
      obtain ⟨f, hf, rfl⟩ := failsBy_find_error.mp hfind.2
      exact ⟨_, Node.mem_preorder_self _, rfl, rfl, .condition hfind.1 hf⟩
    · by_cases htruthy : v.isTruthy = true
      · rw [if_pos htruthy] at hrest
        exact absurd hrest (not_failsBy_ok body)
      · rw [if_neg htruthy] at hrest
        split at hrest
        · obtain ⟨n, hn, hsite⟩ := ih hrest
          refine ⟨n, ?_, hsite⟩
          rw [Node.preorder, Node.optionPreorder, Node.listPreorder_singleton]
          exact List.mem_cons_of_mem _ (List.mem_append_right _ hn)
        · exact absurd hrest (not_failsBy_ok _)

theorem isAt_of_format {path : Path} {formatter : Option FormatterCall}
    (h : FailsBy (· = .error e) (ρ.format setup name position path formatter)) :
    e.IsAt setup ρ name [.value position path formatter] := by
  unfold format at h
  generalize hcall : formatter.getD ⟨setup.defaultFormatter, []⟩ = call at h
  dsimp only at h
  rw [failsBy_bind] at h
  rcases h with hfind | ⟨v, hv, hformat⟩
  · exact isAt_of_find (n := .value position path formatter) (List.mem_singleton_self path) hfind
  · rw [find_eq_ok_iff] at hv
    have hsite {fault : RenderFault}
        (hfault : (Node.value position path formatter).HasFault setup ρ fault)
        (he : FailsBy (· = .error e)
          (throw (.error ⟨fault, position, name⟩) : Answer String)) :
        e.IsAt setup ρ name [.value position path formatter] := by
      obtain rfl : ⟨fault, position, name⟩ = e := by simpa using he
      exact ⟨_, List.mem_singleton_self _, rfl, rfl, hfault⟩
    split at hformat
    · rename_i hget
      exact hsite (.unknownFormatter hcall hget) hformat
    · rename_i f hget
      split at hformat
      · rename_i fault hfault
        exact hsite (.badArguments hcall hget hfault) hformat
      · split at hformat
        · exact absurd hformat (not_failsBy_ok _)
        · rename_i datum hrun
          exact hsite (.notText hcall hget hv hrun) hformat
        · rename_i fault hrun
          exact hsite (.formatFailed hcall hget hv hrun) hformat
        · simp at hformat
        · simp at hformat

theorem isAt_of_findItems {item : String} {index : Option String} {source : Path}
    {body : List Node} (h : FailsBy (· = .error e) (ρ.findItems name position source)) :
    e.IsAt setup ρ name [.forBlock position item index source body] := by
  rw [findItems, failsBy_bind] at h
  rcases h with hfind | ⟨v, hv, hitems⟩
  · exact isAt_of_find (n := .forBlock position item index source body)
      (List.mem_singleton_self source) hfind
  · rw [find_eq_ok_iff] at hv
    have hkind : v.kind ≠ .sequence ∧ ⟨.notIterable source v.kind, position, name⟩ = e := by
      cases v with
      | sequence => exact absurd hitems (not_failsBy_ok _)
      | scalar | record | absent => simpa [Value.kind] using hitems
    obtain ⟨hkind, rfl⟩ := hkind
    exact ⟨_, List.mem_singleton_self _, rfl, rfl, .items hv hkind⟩

theorem isAt_of_call {template : String} {root : Option Path} {arguments : List (String × Path)}
    (h : FailsBy (· = .error e) (ρ.look setup name (.call position template root arguments))) :
    e.IsAt setup ρ name [.call position template root arguments] := by
  have hsite {path : Path} (hpath : path ∈ root.toList ++ arguments.map Prod.snd)
      (hfind : FailsBy (· = .error e) (ρ.find name position path)) :
      e.IsAt setup ρ name [.call position template root arguments] :=
    isAt_of_find (n := .call position template root arguments) hpath hfind
  rw [look, failsBy_bind] at h
  rcases h with htemplate | ⟨t, -, h⟩
  · cases ht : setup.template? template with
    | some t => simp [findTemplate_eq_ok_iff.mpr ht] at htemplate
    | none =>
      have hnone : setup.library.bind (·.get? template) = none := ht
      obtain rfl : ⟨.unknownTemplate template, position, name⟩ = e := by
        simpa [findTemplate, hnone] using htemplate
      exact ⟨_, List.mem_singleton_self _, rfl, rfl, .unknownTemplate ht⟩
  · rw [failsBy_bind] at h
    rcases h with hroot | ⟨current, -, h⟩
    · cases root with
      | none => exact absurd hroot (not_failsBy_ok _)
      | some path => exact hsite (by simp) hroot
    · rw [failsBy_bind_pure, findAll, failsBy_mapM] at h
      obtain ⟨before, argument, behind, rfl, -, hargument⟩ := h
      exact hsite (by simp) (failsBy_map.mp hargument)

theorem isAt_of_look {n : Node} (h : ρ.look setup name n = .error (.error e)) :
    e.IsAt setup ρ name n.preorder := by
  have hfails : FailsBy (· = .error e) (ρ.look setup name n) := ⟨_, h, rfl⟩
  have hself : [n] ⊆ n.preorder := List.cons_subset.mpr ⟨n.mem_preorder_self, List.nil_subset _⟩
  cases n with
  | text | comment => cases h
  | value => exact (isAt_of_format (failsBy_map.mp hfails)).mono hself
  | ifBlock => exact isAt_of_findBranch (failsBy_map.mp hfails)
  | forBlock => exact (isAt_of_findItems (failsBy_map.mp hfails)).mono hself
  | withBlock position bound source body =>
    have hsource : source ∈ (Node.withBlock position bound source body).neededPaths :=
      List.mem_singleton_self source
    exact (isAt_of_find hsource (failsBy_map.mp hfails)).mono hself
  | call => exact (isAt_of_call hfails).mono hself

end Environment

/-- The template whose nodes are being rendered: the one that is called by the innermost call whose
callee is not finished, or `t` where there is no such call. -/
def Setup.executing? (setup : Setup) (t : Template) : List Task → Option Template
  | [] => some t
  | .restore _ :: .leave (.call _ template _ _) :: _ => setup.template? template
  | _ :: tasks => setup.executing? t tasks

/-- The tasks in front are about nodes of the first template, and those behind every call that has
begun to render its callee about nodes of the one that calls it. -/
inductive Stacked (setup : Setup) (t : Template) : Template → List Task → Prop
  | nil : Stacked setup t t []
  | render {u : Template} {nodes : List Node} {tasks : List Task}
      (hnodes : Node.listPreorder nodes ⊆ Node.listPreorder u.nodes)
      (h : Stacked setup t u tasks) : Stacked setup t u (.render u.name nodes :: tasks)
  | look {u : Template} {block : Node} {tasks : List Task}
      (hblock : block.preorder ⊆ Node.listPreorder u.nodes) (h : Stacked setup t u tasks) :
      Stacked setup t u (.look u.name block :: .leave block :: tasks)
  | turns {u : Template} {item : String} {index : Option String} {body : List Node}
      {turns : List (Value × Nat)} {tasks : List Task}
      (hbody : Node.listPreorder body ⊆ Node.listPreorder u.nodes)
      (h : Stacked setup t u tasks) :
      Stacked setup t u (.turns u.name item index body turns :: tasks)
  | unbind {u : Template} {tasks : List Task} (h : Stacked setup t u tasks) :
      Stacked setup t u (.unbind :: tasks)
  | leave {u : Template} {block : Node} {tasks : List Task} (h : Stacked setup t u tasks) :
      Stacked setup t u (.leave block :: tasks)
  | called {u v : Template} {context : Context} {position : Position} {template : String}
      {root : Option Path} {arguments : List (String × Path)} {tasks : List Task}
      (hcallee : setup.template? template = some u) (h : Stacked setup t v tasks) :
      Stacked setup t u
        (.restore context :: .leave (.call position template root arguments) :: tasks)

section Stacked

variable {setup : Setup} {t u : Template} {tasks : List Task}

theorem Stacked.executing_eq (h : Stacked setup t u tasks) :
    setup.executing? t tasks = some u := by
  induction h with
  | nil => rfl
  | called hcallee => exact hcallee
  | look _ _ ih | render _ _ ih | turns _ _ ih | unbind _ ih | leave _ ih => exact ih

theorem Stacked.registered (h : Stacked setup t u tasks) :
    u = t ∨ ∃ name, setup.template? name = some u := by
  induction h with
  | nil => exact .inl rfl
  | called hcallee => exact .inr ⟨_, hcallee⟩
  | look _ _ ih | render _ _ ih | turns _ _ ih | unbind _ ih | leave _ ih => exact ih

end Stacked

namespace Moment

section Invariant

variable {setup : Setup} {t u : Template} {m m' : Moment}

theorem At.stacked {name : String} {n : Node} {behind : List Task} (h : m.At name n behind)
    (hm : Stacked setup t u m.tasks) :
    name = u.name ∧ n.preorder ⊆ Node.listPreorder u.nodes ∧ Stacked setup t u behind ∧
      (n.isLeaf = false → ∃ tasks, behind = .leave n :: tasks) := by
  cases h with
  | value =>
    cases hm with
    | render hnodes htasks =>
      rw [Node.listPreorder] at hnodes
      obtain ⟨hn, hrest⟩ := List.append_subset.mp hnodes
      exact ⟨rfl, hn, .render hrest htasks, nofun⟩
  | block =>
    cases hm with
    | look hblock htasks => exact ⟨rfl, hblock, .leave htasks, fun _ => ⟨_, rfl⟩⟩

theorem stacked_goOn {ρ : Environment} {name : String} {behind : List Task} (s : Session)
    {n : Node} {finding : Finding} (hn : n.preorder ⊆ Node.listPreorder u.nodes)
    (hbehind : Stacked setup t u behind)
    (hleave : n.isLeaf = false → ∃ tasks, behind = .leave n :: tasks)
    (hlook : ρ.look setup name n = .ok finding) :
    ∃ v, Stacked setup t v (goOn u.name behind s n finding).tasks := by
  cases n with
  | text | comment =>
    cases hlook
    exact ⟨u, hbehind⟩
  | value =>
    obtain ⟨text, -, rfl⟩ := exists_of_map_eq_ok hlook
    exact ⟨u, hbehind⟩
  | ifBlock position path body otherwise =>
    obtain ⟨nodes, hbranch, rfl⟩ := exists_of_map_eq_ok hlook
    have hrenders : (Node.ifBlock position path body otherwise).Renders nodes :=
      .ifBlock (Environment.alternative_of_findBranch hbranch)
    exact ⟨u, .render (List.Subset.trans hrenders.preorder_subset hn) hbehind⟩
  | forBlock position item index source body =>
    obtain ⟨items, -, rfl⟩ := exists_of_map_eq_ok hlook
    exact ⟨u, .turns (List.Subset.trans Node.Renders.forBlock.preorder_subset hn) hbehind⟩
  | withBlock position bound source body =>
    obtain ⟨v, -, rfl⟩ := exists_of_map_eq_ok hlook
    have hbody := List.Subset.trans Node.Renders.withBlock.preorder_subset hn
    exact ⟨u, .render hbody (.unbind hbehind)⟩
  | call position template root arguments =>
    obtain ⟨tasks, rfl⟩ := hleave rfl
    obtain ⟨v, hv, hlook⟩ := bind_eq_ok.mp hlook
    obtain ⟨current, -, hlook⟩ := bind_eq_ok.mp hlook
    obtain ⟨bindings, -, hlook⟩ := bind_eq_ok.mp hlook
    obtain rfl := Except.ok.inj hlook
    cases hbehind with
    | leave htasks =>
      have hcallee := Environment.findTemplate_eq_ok_iff.mp hv
      exact ⟨v, .render (List.Subset.refl _) (.called hcallee htasks)⟩

theorem Steps.stacked (h : Steps setup m m') (hm : Stacked setup t u m.tasks) :
    ∃ v, Stacked setup t v m'.tasks := by
  cases h with
  | @found m name n behind finding hat hlook =>
    obtain ⟨rfl, hn, hbehind, hleave⟩ := hat.stacked hm
    exact stacked_goOn m.session hn hbehind hleave hlook
  | text | comment =>
    cases hm with
    | render hnodes htasks => exact ⟨u, .render (List.append_subset.mp hnodes).2 htasks⟩
  | enter =>
    cases hm with
    | render hnodes htasks =>
      obtain ⟨hblock, hrest⟩ := List.append_subset.mp hnodes
      exact ⟨u, .look hblock (.render hrest htasks)⟩
  | turn =>
    cases hm with
    | turns hbody htasks => exact ⟨u, .render hbody (.unbind (.turns hbody htasks))⟩
  | rendered =>
    cases hm with
    | render hnodes htasks => exact ⟨u, htasks⟩
  | turned =>
    cases hm with
    | turns hbody htasks => exact ⟨u, htasks⟩
  | leaf =>
    cases hm with
    | look hblock htasks => exact ⟨u, .leave htasks⟩
  | undo htask =>
    cases hm with
    | render | look | turns => cases htask
    | unbind htasks => exact ⟨u, htasks⟩
    | leave htasks => exact ⟨u, htasks⟩
    | called hcallee htasks => exact ⟨_, .leave htasks⟩

theorem StoppedBy.interruption_eq {interruption : Interruption}
    (h : m.StoppedBy setup interruption) : m.interruption = none := by
  cases h with
  | failed hat => exact hat.interruption_eq
  | full => rfl

theorem StoppedBy.isAt {e : RenderError} (h : m.StoppedBy setup (.error e))
    (hm : Stacked setup t u m.tasks) :
    e.IsAt setup m.view u.name (Node.listPreorder u.nodes) := by
  generalize hinterruption : Interruption.error e = interruption at h
  cases h with
  | @failed _ name n behind _ hat hlook =>
    obtain ⟨rfl, hn, -, -⟩ := hat.stacked hm
    exact (Environment.isAt_of_look (hinterruption ▸ hlook)).mono hn
  | @full name block nodes tasks s hblock hfull =>
    obtain rfl := Interruption.eq_of_error_eq_tooDeep hinterruption
    cases hm with
    | render hnodes htasks =>
      have hmem := (List.append_subset.mp hnodes).1 block.mem_preorder_self
      exact ⟨block, hmem, rfl, rfl, .depthExceeded hblock⟩

end Invariant

end Moment

namespace Template

/-- An error ends a rendering at a moment at which it is a fault of a node of the template that is
being rendered then, be it the first one or one that was called, and that node and that template
are where the error is located. -/
theorem error_located {t : Template} {setup : Setup} {limit : Int} {root : Value}
    {e : RenderError} (h : (t.render setup limit root).interruption = some (.error e)) :
    ∃ m u n, Moment.Leads setup (.begun t limit root) m ∧ m.StoppedBy setup (.error e) ∧
      setup.executing? t m.tasks = some u ∧ (u = t ∨ ∃ name, setup.template? name = some u) ∧
      n ∈ Node.listPreorder u.nodes ∧ e.templateName = u.name ∧ e.position = n.position ∧
      n.HasFault setup m.view e.fault := by
  obtain ⟨m, hleads, hstop⟩ := Moment.interruption_eq_some_iff.mp h
  have hbegun : ∃ u, Stacked setup t u (Moment.begun t limit root).tasks :=
    ⟨t, .render (List.Subset.refl _) .nil⟩
  have hstacked : ∃ u, Stacked setup t u m.tasks := by
    refine Moment.Leads.running (P := fun m => ∃ u, Stacked setup t u m.tasks) hleads
      hstop.interruption_eq hbegun ?_
    rintro k k' hsteps ⟨v, hk⟩
    exact hsteps.stacked hk
  obtain ⟨u, hm⟩ := hstacked
  obtain ⟨n, hn, hname, hposition, hfault⟩ := hstop.isAt hm
  exact ⟨m, u, n, hleads, hstop, hm.executing_eq, hm.registered, hn, hname, hposition, hfault⟩

def branching : Template :=
  ⟨"c", [.ifBlock ⟨0, 1, 1⟩ ⟨["x"], false⟩ []
    (some [.ifBlock ⟨10, 1, 11⟩ ⟨["y"], false⟩ [] none])]⟩

def branchingCaller : Template := ⟨"a", [.text ⟨0, 1, 1⟩ "s", .call ⟨1, 1, 2⟩ "b" none []]⟩

def branchingSetup : Setup := ⟨[], some [("b", branching)], true, "default"⟩

/-- The fault of a further condition in a template that was called by another name than its own. -/
theorem error_located_called :
    (branchingCaller.render branchingSetup 2
        (.record [("x", .scalar (.truth false))])).interruption =
      some (.error ⟨.pathNotFound ⟨["y"], false⟩ (.noField "y"), ⟨10, 1, 11⟩, "c"⟩) ∧
    ∃ m u n, Moment.Leads branchingSetup
        (.begun branchingCaller 2 (.record [("x", .scalar (.truth false))])) m ∧
      branchingSetup.executing? branchingCaller m.tasks = some u ∧ u.name = "c" ∧
      n ∈ Node.listPreorder u.nodes ∧ n.position = ⟨10, 1, 11⟩ ∧
      n.HasFault branchingSetup m.view (.pathNotFound ⟨["y"], false⟩ (.noField "y")) := by
  have hmissing :
      (branchingCaller.render branchingSetup 2
        (.record [("x", .scalar (.truth false))])).interruption =
      some (.error ⟨.pathNotFound ⟨["y"], false⟩ (.noField "y"), ⟨10, 1, 11⟩, "c"⟩) := by cbv
  obtain ⟨m, u, n, hleads, -, hexecuting, -, hn, hname, hposition, hfault⟩ :=
    error_located hmissing
  exact ⟨hmissing, m, u, n, hleads, hexecuting, hname.symm, hn, hposition.symm, hfault⟩

end Template

end TextTemplate
