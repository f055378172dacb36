import Mathlib.Logic.Relation
import TextTemplate.Proofs.Invariant

/-! A rendering moment by moment. A moment has a session and the tasks that are still to be done,
the next one first. Nothing but the count of depth in the session bounds how many there are. -/

namespace TextTemplate

/-- Something left to do. An entered block or call has looked nothing up before `look`, and is
finished with `leave`. -/
inductive Task where
  | render (name : String) (nodes : List Node)
  | look (name : String) (block : Node)
  | turns (name item : String) (index : Option String) (body : List Node)
      (turns : List (Value × Nat))
  | unbind
  | restore (context : Context)
  | leave (block : Node)

namespace Task

/-- What the task puts back in the session, if it is one that is done on every way out. -/
def undo? : Task → Option (Session → Session)
  | unbind => some fun s => { s with context := s.context.pop?.getD s.context }
  | restore context => some fun s => { s with context }
  | leave _ => some fun s => { s with depth := s.depth.leave }
  | _ => none

def entered? : Task → Option Node
  | leave block => some block
  | _ => none

end Task

namespace RenderM

def callee (setup : Setup) (name : String) (position : Position) (template : String)
    (root : Option Path) (arguments : List (String × Path)) : RenderM (Template × Context) := do
  let t ← called setup name position template
  let current ← calledRoot name position root
  let bindings ← resolveArguments name position arguments
  return (t, .called current bindings)

/-- What a block or a call does one level down. -/
def within (setup : Setup) (levels : Nat) (name : String) : Node → RenderM Unit
  | .ifBlock position path body otherwise => do
    let branch ← selectBranch setup name position path body otherwise
    branch.forM (node setup levels name)
  | .forBlock position item index source body => do
    let items ← items name position source
    items.zipIdx.forM fun turn =>
      binding (turnBindings item index turn) (body.forM (node setup levels name))
  | .withBlock position bound source body => do
    let v ← resolve name position source
    binding [(bound, v)] (body.forM (node setup levels name))
  | .call position template root arguments => do
    let found ← callee setup name position template root arguments
    inside found.2 (found.1.nodes.forM (node setup levels found.1.name))
  | _ => return

theorem node_succ (setup : Setup) (levels : Nat) (name : String) {block : Node}
    (hblock : block.isLeaf = false) :
    node setup (levels + 1) name block =
      nested name block.position (within setup levels name block) := by
  cases block with
  | text | comment | value => cases hblock
  | ifBlock | forBlock | withBlock => rfl
  | call position template root arguments =>
    simp only [node, within, callee, bind_assoc, pure_bind]
    rfl

theorem run_node_zero (setup : Setup) (name : String) {block : Node} (s : Session)
    (hblock : block.isLeaf = false) :
    (node setup 0 name block).run s =
      (.error (.tooDeep s.depth.limit block.position name), s) := by
  cases block with
  | text | comment | value => cases hblock
  | ifBlock | forBlock | withBlock | call => rfl

theorem run_nested {α : Type} (name : String) (position : Position) (action : RenderM α)
    {s : Session} {depth : Depth} (henter : s.depth.enter? = some depth) :
    (nested name position action).run s =
      ((action.run { s with depth }).1,
        { (action.run { s with depth }).2 with
          depth := (action.run { s with depth }).2.depth.leave }) := by
  simp only [nested, ExceptT.run_mk, henter]
  rfl

theorem looks_callee (setup : Setup) (name : String) (position : Position) (template : String)
    (root : Option Path) (arguments : List (String × Path)) (s : Session) :
    Looks (callee setup name position template root arguments) s do
      let t ← Environment.findTemplate setup name position template
      let current ← s.context.environment.findRoot name position root
      let bindings ← s.context.environment.findAll name position arguments
      return (t, .called current bindings) := by
  refine (looks_called setup name position template s).bind fun t => ?_
  refine (looks_root name position root s).bind fun current => ?_
  refine (looks_arguments name position arguments s).bind fun bindings => ?_
  exact looks_pure (t, Context.called current bindings) s

theorem Means.depth_eq {action : RenderM Unit} {s s' : Session} {m : Meaning}
    {result : Answer Unit} (h : Means action s m) (hrun : action.run s = (result, s')) :
    s'.depth = s.depth := by
  obtain ⟨chunks, -, hmeans⟩ := h
  have heq := hrun.symm.trans hmeans
  rw [(Prod.mk.inj heq).2]

end RenderM

structure Moment where
  tasks : List Task
  session : Session
  interruption : Option Interruption

namespace Moment

def begun (t : Template) (limit : Int) (root : Value) : Moment :=
  ⟨[.render t.name t.nodes], ⟨.root root, .start limit, []⟩, none⟩

/-- The moment at which a rendering has given what it gives, and all is put back. -/
def done (limit : Int) (root : Value) (r : Rendering) : Moment :=
  ⟨[], ⟨.root root, .start limit, r.chunks.reverse⟩, r.interruption⟩

/-- The blocks and calls that were entered and are not left yet, the innermost first. -/
def entered (m : Moment) : List Node :=
  m.tasks.filterMap Task.entered?

def after {α : Type} (tasks : List Task) (answer : Answer α × Session)
    (go : α → Session → Moment) : Moment :=
  match answer with
  | (.ok a, s) => go a s
  | (.error interruption, s) => ⟨tasks, s, some interruption⟩

def ended (tasks : List Task) (answer : Answer Unit × Session) : Moment :=
  after tasks answer fun _ s => ⟨tasks, s, none⟩

def say (tasks : List Task) (text : String) (s : Session) : Moment :=
  ⟨tasks, { s with output := text :: s.output }, none⟩

/-- Leaves are rendered at once. Everything else is entered, if the limit allows it. -/
def start (setup : Setup) (name : String) (tasks : List Task) (s : Session) : Node → Moment
  | .text _ text => say tasks text s
  | .comment _ _ => ⟨tasks, s, none⟩
  | .value position path formatter =>
    after tasks ((RenderM.format setup name position path formatter).run s) (say tasks)
  | block =>
    match s.depth.enter? with
    | none => ⟨tasks, s, some (.tooDeep s.depth.limit block.position name)⟩
    | some depth => ⟨.look name block :: .leave block :: tasks, { s with depth }, none⟩

def lookUp (setup : Setup) (name : String) (tasks : List Task) (s : Session) : Node → Moment
  | .ifBlock position path body otherwise =>
    after tasks ((RenderM.selectBranch setup name position path body otherwise).run s)
      fun nodes s => ⟨.render name nodes :: tasks, s, none⟩
  | .forBlock position item index source body =>
    after tasks ((RenderM.items name position source).run s)
      fun items s => ⟨.turns name item index body items.zipIdx :: tasks, s, none⟩
  | .withBlock position bound source body =>
    after tasks ((RenderM.resolve name position source).run s) fun v s =>
      ⟨.render name body :: .unbind :: tasks, { s with context := s.context.push [(bound, v)] },
        none⟩
  | .call position template root arguments =>
    after tasks ((RenderM.callee setup name position template root arguments).run s)
      fun found s => ⟨.render found.1.name found.1.nodes :: .restore s.context :: tasks,
        { s with context := found.2 }, none⟩
  | _ => ⟨tasks, s, none⟩

def perform (setup : Setup) (tasks : List Task) (s : Session) : Task → Moment
  | .render name (n :: nodes) => start setup name (.render name nodes :: tasks) s n
  | .look name block => lookUp setup name tasks s block
  | .turns name item index body (turn :: turns) =>
    ⟨.render name body :: .unbind :: .turns name item index body turns :: tasks,
      { s with context := s.context.push (RenderM.turnBindings item index turn) }, none⟩
  | _ => ⟨tasks, s, none⟩

/-- The next moment, as long as there is a task. Once something has stopped the rendering, tasks
that undo nothing are passed over. -/
def next? (setup : Setup) : Moment → Option Moment
  | ⟨[], _, _⟩ => none
  | ⟨task :: tasks, s, interruption⟩ =>
    match task.undo?, interruption with
    | some undo, _ => some ⟨tasks, undo s, interruption⟩
    | none, some _ => some ⟨tasks, s, interruption⟩
    | none, none => some (perform setup tasks s task)

theorem start_of_full {setup : Setup} {name : String} {tasks : List Task} {s : Session}
    {block : Node} (hblock : block.isLeaf = false) (hfull : s.depth.enter? = none) :
    start setup name tasks s block =
      ⟨tasks, s, some (.tooDeep s.depth.limit block.position name)⟩ := by
  cases block with
  | text | comment | value => cases hblock
  | ifBlock | forBlock | withBlock | call => simp only [start, hfull]

theorem start_of_enter {setup : Setup} {name : String} {tasks : List Task} {s : Session}
    {block : Node} (hblock : block.isLeaf = false) {depth : Depth}
    (henter : s.depth.enter? = some depth) :
    start setup name tasks s block =
      ⟨.look name block :: .leave block :: tasks, { s with depth }, none⟩ := by
  cases block with
  | text | comment | value => cases hblock
  | ifBlock | forBlock | withBlock | call => simp only [start, henter]

/-- Some number of steps lead from one moment to the other. -/
def Leads (setup : Setup) : Moment → Moment → Prop :=
  Relation.ReflTransGen fun m m' => next? setup m = some m'

section Leads

open RenderM

variable {setup : Setup} {m : Moment} {task : Task} {tasks : List Task} {s s' : Session}

theorem Leads.step {m' m'' : Moment} (hnext : next? setup m = some m') (h : Leads setup m' m'') :
    Leads setup m m'' :=
  Relation.ReflTransGen.head hnext h

theorem Leads.undone {result : Answer Unit} {undo : Session → Session}
    (h : Leads setup m (ended (task :: tasks) (result, s))) (htask : task.undo? = some undo) :
    Leads setup m (ended tasks (result, undo s)) := by
  apply Relation.ReflTransGen.tail h
  cases result <;> simp [ended, after, next?, htask]

theorem Leads.followed {x y : RenderM Unit}
    (h : Leads setup m (ended (task :: tasks) (x.run s))) (htask : task.undo? = none)
    (hy : ∀ s', x.run s = (.ok (), s') →
      Leads setup ⟨task :: tasks, s', none⟩ (ended tasks (y.run s'))) :
    Leads setup m (ended tasks ((do x; y).run s)) := by
  rw [run_bind]
  cases hx : x.run s with
  | mk result s' =>
    rw [hx] at h
    cases result with
    | ok =>
      have hrest := hy s' hx
      exact Relation.ReflTransGen.trans h hrest
    | error interruption =>
      apply Relation.ReflTransGen.tail h
      simp [ended, after, next?, htask]

theorem Leads.looked {α : Type} {x : RenderM α} {f : α → RenderM Unit} {answer : Answer α}
    {go : α → Session → Moment} (hnext : next? setup m = some (after tasks (x.run s) go))
    (hlooks : Looks x s answer) (hf : ∀ a, Leads setup (go a s) (ended tasks ((f a).run s))) :
    Leads setup m (ended tasks ((x >>= f).run s)) := by
  rw [hlooks] at hnext
  rw [run_bind, hlooks]
  cases answer with
  | ok a => exact Leads.step hnext (hf a)
  | error interruption => exact Relation.ReflTransGen.single hnext

def RendersAll (setup : Setup) (levels : Nat) : Prop :=
  ∀ (name : String) (nodes : List Node) (tasks : List Task) (s : Session), LevelsLeft levels s →
    Leads setup ⟨.render name nodes :: tasks, s, none⟩
      (ended tasks ((nodes.forM (RenderM.node setup levels name)).run s))

theorem leads_turns {levels : Nat} (h : RendersAll setup levels) (name item : String)
    (index : Option String) (body : List Node) (turns : List (Value × Nat)) (tasks : List Task)
    (hs : LevelsLeft levels s) :
    Leads setup ⟨.turns name item index body turns :: tasks, s, none⟩
      (ended tasks ((turns.forM fun turn => binding (turnBindings item index turn)
        (body.forM (RenderM.node setup levels name))).run s)) := by
  induction turns generalizing s with
  | nil => exact Relation.ReflTransGen.single rfl
  | cons turn turns ih =>
    have hinner : LevelsLeft levels
        { s with context := s.context.push (turnBindings item index turn) } := hs
    have hbody := h name body (.unbind :: .turns name item index body turns :: tasks) _ hinner
    have hnext : next? setup ⟨.turns name item index body (turn :: turns) :: tasks, s, none⟩ =
        some ⟨.render name body :: .unbind :: .turns name item index body turns :: tasks,
          { s with context := s.context.push (turnBindings item index turn) }, none⟩ := rfl
    refine Leads.followed ((Leads.step hnext hbody).undone rfl) rfl fun s' hs' => ih ?_
    -- The next turn has as many levels, since this one has left all that it entered.
    have hdepth := (means_nodes (means_node setup levels) name body hinner).binding.depth_eq hs'
    rw [LevelsLeft, hdepth]
    exact hs

theorem leads_lookUp {levels : Nat} (h : RendersAll setup levels) (name : String) {block : Node}
    (hblock : block.isLeaf = false) (tasks : List Task) (hs : LevelsLeft levels s) :
    Leads setup ⟨.look name block :: tasks, s, none⟩
      (ended tasks ((within setup levels name block).run s)) := by
  cases block with
  | text | comment | value => cases hblock
  | ifBlock position path body otherwise =>
    refine Leads.looked rfl (looks_selectBranch setup name position path body otherwise s) ?_
    intro nodes
    exact h name nodes tasks s hs
  | forBlock position item index source body =>
    refine Leads.looked rfl (looks_items name position source s) ?_
    intro items
    exact leads_turns h name item index body items.zipIdx tasks hs
  | withBlock position bound source body =>
    refine Leads.looked rfl (looks_resolve name position source s) ?_
    intro v
    have hbody := h name body (.unbind :: tasks)
      { s with context := s.context.push [(bound, v)] } hs
    exact hbody.undone rfl
  | call position template root arguments =>
    refine Leads.looked rfl (looks_callee setup name position template root arguments s) ?_
    intro ⟨t, context⟩
    have hbody := h t.name t.nodes (.restore s.context :: tasks) { s with context } hs
    exact hbody.undone rfl

theorem leads_start {levels : Nat} (h : ∀ l < levels, RendersAll setup l) (name : String)
    (n : Node) (nodes : List Node) (tasks : List Task) (hs : LevelsLeft levels s) :
    Leads setup ⟨.render name (n :: nodes) :: tasks, s, none⟩
      (ended (.render name nodes :: tasks) ((RenderM.node setup levels name n).run s)) := by
  by_cases hleaf : n.isLeaf = true
  · cases n with
    | text | comment => cases levels <;> exact Relation.ReflTransGen.single rfl
    | value position path formatter =>
      have hnode : RenderM.node setup levels name (.value position path formatter) =
          RenderM.format setup name position path formatter >>= emit := by cases levels <;> rfl
      rw [hnode]
      refine Leads.looked rfl (looks_format setup name position path formatter s) ?_
      intro text
      exact Relation.ReflTransGen.refl
    | ifBlock | forBlock | withBlock | call => cases hleaf
  · have hblock : n.isLeaf = false := by simpa using hleaf
    have hstart : next? setup ⟨.render name (n :: nodes) :: tasks, s, none⟩ =
        some (start setup name (.render name nodes :: tasks) s n) := rfl
    cases levels with
    | zero =>
      have hfull : s.depth.enter? = none := by
        rw [LevelsLeft] at hs
        rw [Depth.enter?, if_pos (by omega)]
      rw [start_of_full hblock hfull] at hstart
      rw [run_node_zero setup name s hblock]
      exact Relation.ReflTransGen.single hstart
    | succ levels =>
      have henter : s.depth.enter? = some ⟨s.depth.limit, s.depth.current + 1⟩ := by
        rw [LevelsLeft] at hs
        rw [Depth.enter?, if_neg (by omega)]
      have hinner : LevelsLeft levels
          { s with depth := ⟨s.depth.limit, s.depth.current + 1⟩ } := by
        simp only [LevelsLeft] at hs ⊢
        omega
      rw [start_of_enter hblock henter] at hstart
      have hlook := leads_lookUp (h levels (by omega)) name hblock
        (.leave n :: .render name nodes :: tasks) hinner
      have hleave := (Leads.step hstart hlook).undone rfl
      rw [node_succ setup levels name hblock, run_nested name n.position _ henter]
      exact hleave

theorem rendersAll (setup : Setup) (levels : Nat) : RendersAll setup levels := by
  -- What a node renders has fewer levels, and the nodes behind it have as many, so the induction on
  -- the list is inside the one on levels.
  induction levels using Nat.strongRecOn with
  | ind levels ih =>
    intro name nodes
    induction nodes with
    | nil =>
      intro tasks s _
      exact Relation.ReflTransGen.single rfl
    | cons n nodes ihnodes =>
      intro tasks s hs
      have hstart := leads_start ih name n nodes tasks hs
      refine Leads.followed hstart rfl fun s' hs' => ihnodes tasks s' ?_
      have hdepth := (means_node setup levels name n s hs).depth_eq hs'
      rw [LevelsLeft, hdepth]
      exact hs

theorem leads_render (t : Template) (setup : Setup) (limit : Int) (root : Value) :
    Leads setup (begun t limit root) (done limit root (t.render setup limit root)) := by
  have hleads := rendersAll setup limit.toNat t.name t.nodes [] _ (levelsLeft_start limit root)
  obtain ⟨chunks, -, hrun⟩ := means_template t setup limit root
  rw [hrun] at hleads
  rw [Template.render, hrun]
  cases hm : outcome _ with
  | ok => simpa [ended, after, hm, begun, done] using hleads
  | error interruption => simpa [ended, after, hm, begun, done] using hleads

/-- Whatever moment a rendering reaches, it goes on to its end from there. -/
theorem leads_done {t : Template} {limit : Int} {root : Value}
    (h : Leads setup (begun t limit root) m) :
    Leads setup m (done limit root (t.render setup limit root)) := by
  have hunique : Relator.RightUnique fun m m' : Moment => next? setup m = some m' := by
    intro m m' m'' hm' hm''
    exact Option.some_inj.mp (hm'.symm.trans hm'')
  have hend := leads_render t setup limit root
  rcases Relation.ReflTransGen.total_of_right_unique hunique h hend with hrest | hbeyond
  · exact hrest
  · rcases Relation.ReflTransGen.cases_head hbeyond with heq | ⟨m', hnext, -⟩
    · rw [heq]
      exact Relation.ReflTransGen.refl
    · cases hnext

end Leads

/-- The depth counts the blocks and calls that were entered and are not left yet. -/
structure Counts (limit : Int) (m : Moment) : Prop where
  limit_eq : m.session.depth.limit = limit
  current_eq : m.session.depth.current = m.entered.length
  length_le : (m.entered.length : Int) ≤ max limit 0
  blocks : ∀ n ∈ m.entered, n.isLeaf = false

section Counts

open RenderM

variable {setup : Setup} {limit : Int} {m m' : Moment} {tasks : List Task} {s : Session}

theorem counts_begun (t : Template) (limit : Int) (root : Value) :
    Counts limit (begun t limit root) where
  limit_eq := rfl
  current_eq := rfl
  length_le := Int.le_max_right limit 0
  blocks := by simp [entered, begun, Task.entered?]

theorem Counts.congr (h : Counts limit m) (hdepth : m'.session.depth = m.session.depth)
    (hentered : m'.entered = m.entered) : Counts limit m' where
  limit_eq := by rw [hdepth]; exact h.limit_eq
  current_eq := by rw [hdepth, hentered]; exact h.current_eq
  length_le := by rw [hentered]; exact h.length_le
  blocks := by rw [hentered]; exact h.blocks

theorem Counts.after {α : Type} {x : RenderM α} {answer : Answer α} {go : α → Session → Moment}
    (h : Counts limit ⟨tasks, s, none⟩) (hlooks : Looks x s answer)
    (hgo : ∀ a, Counts limit (go a s)) : Counts limit (after tasks (x.run s) go) := by
  rw [hlooks]
  cases answer with
  | ok a => exact hgo a
  | error interruption => exact h.congr rfl rfl

theorem Counts.lookUp (h : Counts limit ⟨tasks, s, none⟩) (name : String) (block : Node) :
    Counts limit (lookUp setup name tasks s block) := by
  cases block with
  | text | comment | value => exact h
  | ifBlock position path body otherwise =>
    refine h.after (looks_selectBranch setup name position path body otherwise s) ?_
    intro nodes
    exact h.congr rfl rfl
  | forBlock position item index source body =>
    refine h.after (looks_items name position source s) ?_
    intro items
    exact h.congr rfl rfl
  | withBlock position bound source body =>
    refine h.after (looks_resolve name position source s) ?_
    intro v
    exact h.congr rfl rfl
  | call position template root arguments =>
    refine h.after (looks_callee setup name position template root arguments s) ?_
    intro found
    exact h.congr rfl rfl

theorem Counts.enter (h : Counts limit ⟨tasks, s, none⟩) (name : String) {block : Node}
    (hblock : block.isLeaf = false) {depth : Depth} (henter : s.depth.enter? = some depth) :
    Counts limit ⟨.look name block :: .leave block :: tasks, { s with depth }, none⟩ := by
  obtain ⟨hlimit, hcurrent, hle, hblocks⟩ := h
  simp only [Depth.enter?, Option.ite_none_left_eq_some, Option.some.injEq] at henter
  obtain ⟨hroom, rfl⟩ := henter
  have hentered : entered ⟨.look name block :: .leave block :: tasks,
      { s with depth := { s.depth with current := s.depth.current + 1 } }, none⟩ =
      block :: entered ⟨tasks, s, none⟩ := rfl
  dsimp only at hlimit hcurrent
  refine ⟨hlimit, ?_, ?_, ?_⟩
  · rw [hentered, List.length_cons]
    show s.depth.current + 1 = _
    omega
  · rw [hentered, List.length_cons]
    omega
  · rw [hentered]
    exact List.forall_mem_cons.mpr ⟨hblock, hblocks⟩

theorem Counts.leave {block : Node} {interruption : Option Interruption}
    (h : Counts limit ⟨.leave block :: tasks, s, interruption⟩) :
    Counts limit ⟨tasks, { s with depth := s.depth.leave }, interruption⟩ := by
  obtain ⟨hlimit, hcurrent, hle, hblocks⟩ := h
  have hentered : entered ⟨.leave block :: tasks, s, interruption⟩ =
      block :: entered ⟨tasks, { s with depth := s.depth.leave }, interruption⟩ := rfl
  rw [hentered, List.length_cons] at hcurrent hle
  rw [hentered] at hblocks
  refine ⟨hlimit, ?_, by omega, (List.forall_mem_cons.mp hblocks).2⟩
  show s.depth.current - 1 = _
  dsimp only at hcurrent
  omega

theorem Counts.start (h : Counts limit ⟨tasks, s, none⟩) (name : String) (n : Node) :
    Counts limit (start setup name tasks s n) := by
  have hentering (block : Node) (hblock : block.isLeaf = false) :
      Counts limit (Moment.start setup name tasks s block) := by
    cases henter : s.depth.enter? with
    | none =>
      rw [start_of_full hblock henter]
      exact h.congr rfl rfl
    | some depth =>
      rw [start_of_enter hblock henter]
      exact h.enter name hblock henter
  cases n with
  | text | comment => exact h.congr rfl rfl
  | value position path formatter =>
    refine h.after (looks_format setup name position path formatter s) ?_
    intro text
    exact h.congr rfl rfl
  | ifBlock | forBlock | withBlock | call => exact hentering _ rfl

theorem Counts.next (h : Counts limit m) (hnext : next? setup m = some m') : Counts limit m' := by
  obtain ⟨_ | ⟨task, tasks⟩, s, interruption⟩ := m
  · cases hnext
  · cases task with
    | unbind | restore =>
      cases hnext
      exact h.congr rfl rfl
    | leave block =>
      cases hnext
      exact h.leave
    | render name nodes =>
      have hbehind : Counts limit ⟨.render name (nodes.drop 1) :: tasks, s, none⟩ := h.congr rfl rfl
      cases interruption with
      | some interruption => cases hnext; exact h.congr rfl rfl
      | none =>
        cases hnext
        cases nodes with
        | nil => exact h.congr rfl rfl
        | cons n nodes => exact hbehind.start name n
    | look name block =>
      have hbehind : Counts limit ⟨tasks, s, none⟩ := h.congr rfl rfl
      cases interruption with
      | some interruption => cases hnext; exact h.congr rfl rfl
      | none => cases hnext; exact hbehind.lookUp name block
    | turns name item index body turns =>
      cases interruption with
      | some interruption => cases hnext; exact h.congr rfl rfl
      | none =>
        cases hnext
        cases turns with
        | nil | cons => exact h.congr rfl rfl

theorem Counts.leads (h : Counts limit m) (hleads : Leads setup m m') : Counts limit m' := by
  induction hleads with
  | refl => exact h
  | tail _ hnext ih => exact ih.next hnext

end Counts

end Moment

/-- A rendering gives the text of the template's meaning and ends as the meaning does. It is what a
run comes to that nothing bounds but the count of depth, which is asked before anything is looked
up. -/
theorem Template.render_means (t : Template) (setup : Setup) (limit : Int) (root : Value) :
    (t.render setup limit root).text = (t.meaning setup limit root).text ∧
      (t.render setup limit root).interruption = (t.meaning setup limit root).interruption ∧
      Moment.Leads setup (.begun t limit root) (.done limit root (t.render setup limit root)) := by
  obtain ⟨htext, hinterruption⟩ := t.render_eq_meaning setup limit root
  exact ⟨htext, hinterruption, Moment.leads_render t setup limit root⟩

end TextTemplate
