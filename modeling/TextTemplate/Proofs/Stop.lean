import TextTemplate.Proofs.Moment

/-! The moment at which a rendering is stopped. A block looks things up only when it was entered,
and a value when its turn comes; a rendering stops where such a look-up fails or no level is left,
and from there on nothing but undoing is done. -/

namespace TextTemplate

/-- What a node goes on with once it has looked everything up. -/
inductive Finding where
  | text (text : String)
  | branch (nodes : List Node)
  | items (items : List Value)
  | value (v : Value)
  | callee (t : Template) (context : Context)

namespace Environment

/-- Everything that a node of the named template looks up. Texts and comments need nothing. -/
def look (ρ : Environment) (setup : Setup) (name : String) : Node → Answer Finding
  | .text _ text => .ok (.text text)
  | .comment _ _ => .ok (.branch [])
  | .value position path formatter =>
    .text <$> ρ.format setup name position path formatter
  | .ifBlock position path body otherwise =>
    .branch <$> ρ.findBranch setup name position path body otherwise
  | .forBlock position _ _ source _ => .items <$> ρ.findItems name position source
  | .withBlock position _ source _ => .value <$> ρ.find name position source
  | .call position template root arguments => do
    let t ← findTemplate setup name position template
    let current ← ρ.findRoot name position root
    let bindings ← ρ.findAll name position arguments
    return .callee t (.called current bindings)

end Environment

namespace Moment

/-- The moment after a node has found what it looked up. -/
def goOn (name : String) (behind : List Task) (s : Session) : Node → Finding → Moment
  | .value .., .text text => say behind text s
  | .ifBlock .., .branch nodes => ⟨.render name nodes :: behind, s, none⟩
  | .forBlock _ item index _ body, .items items =>
    ⟨.turns name item index body items.zipIdx :: behind, s, none⟩
  | .withBlock _ bound _ body, .value v =>
    ⟨.render name body :: .unbind :: behind, { s with context := s.context.push [(bound, v)] },
      none⟩
  | .call .., .callee t context =>
    ⟨.render t.name t.nodes :: .restore s.context :: behind, { s with context }, none⟩
  | _, _ => ⟨behind, s, none⟩

/-- The node is about to look things up, with these tasks behind it. -/
inductive At : Moment → String → Node → List Task → Prop
  | value {name : String} {position : Position} {path : Path} {formatter : Option FormatterCall}
      {nodes : List Node} {tasks : List Task} {s : Session} :
      At ⟨.render name (.value position path formatter :: nodes) :: tasks, s, none⟩ name
        (.value position path formatter) (.render name nodes :: tasks)
  | block {name : String} {block : Node} {tasks : List Task} {s : Session}
      (hblock : block.isLeaf = false) : At ⟨.look name block :: tasks, s, none⟩ name block tasks

/-- What the node can see that is about to look things up. -/
def view (m : Moment) : Environment :=
  m.session.context.environment

/-- The step from the moment stops the rendering. -/
inductive StoppedBy (setup : Setup) : Moment → Interruption → Prop
  | failed {m : Moment} {name : String} {n : Node} {behind : List Task}
      {interruption : Interruption} (hat : m.At name n behind)
      (h : m.view.look setup name n = .error interruption) : StoppedBy setup m interruption
  | full {name : String} {block : Node} {nodes : List Node} {tasks : List Task} {s : Session}
      (hblock : block.isLeaf = false) (h : s.depth.enter? = none) :
      StoppedBy setup ⟨.render name (block :: nodes) :: tasks, s, none⟩
        (.tooDeep s.depth.limit block.position name)

section Step

variable {setup : Setup} {m m' : Moment} {name : String} {n : Node} {behind : List Task}
  {interruption : Interruption}

theorem At.interruption_eq (h : m.At name n behind) : m.interruption = none := by
  cases h <;> rfl

/-- A step from a look-up goes on with what was found, or leaves the session as it is and stops. -/
theorem next?_of_at (h : m.At name n behind) :
    next? setup m = some (match m.view.look setup name n with
      | .ok finding => goOn name behind m.session n finding
      | .error interruption => ⟨behind, m.session, some interruption⟩) := by
  cases h with
  | @value _ position path formatter nodes tasks s =>
    have hlooks := RenderM.looks_format setup name position path formatter s
    simp only [next?, Task.undo?, perform, start]
    rw [hlooks, view, Environment.look]
    cases s.context.environment.format setup name position path formatter <;> rfl
  | @block _ _ _ s hblock =>
    cases n with
    | text | comment | value => cases hblock
    | ifBlock position path body otherwise =>
      have hlooks := RenderM.looks_selectBranch setup name position path body otherwise s
      simp only [next?, Task.undo?, perform, lookUp]
      rw [hlooks, view, Environment.look]
      cases s.context.environment.findBranch setup name position path body otherwise <;> rfl
    | forBlock position item index source body =>
      have hlooks := RenderM.looks_items name position source s
      simp only [next?, Task.undo?, perform, lookUp]
      rw [hlooks, view, Environment.look]
      cases s.context.environment.findItems name position source <;> rfl
    | withBlock position bound source body =>
      have hlooks := RenderM.looks_resolve name position source s
      simp only [next?, Task.undo?, perform, lookUp]
      rw [hlooks, view, Environment.look]
      cases s.context.environment.find name position source <;> rfl
    | call position template root arguments =>
      have hlooks := RenderM.looks_callee setup name position template root arguments s
      simp only [next?, Task.undo?, perform, lookUp]
      rw [hlooks, view, Environment.look]
      cases Environment.findTemplate setup name position template with
      | error => rfl
      | ok t =>
        cases s.context.environment.findRoot name position root with
        | error => rfl
        | ok current =>
          cases s.context.environment.findAll name position arguments <;> rfl

theorem goOn_interruption (name : String) (behind : List Task) (s : Session) (n : Node)
    (finding : Finding) : (goOn name behind s n finding).interruption = none := by
  cases n <;> cases finding <;> rfl

theorem suffix_goOn (name : String) (behind : List Task) (s : Session) (n : Node)
    (finding : Finding) : s.output <:+ (goOn name behind s n finding).session.output := by
  cases n <;> cases finding <;>
    first | exact List.suffix_rfl | exact List.suffix_cons _ _

/-- From a moment that is stopped the next is stopped by the same, and says no more. -/
theorem next?_stopped (hm : m.interruption = some interruption) (h : next? setup m = some m') :
    m'.interruption = some interruption ∧ m'.session.output = m.session.output := by
  obtain ⟨_ | ⟨task, tasks⟩, s, _⟩ := m
  · cases h
  · subst hm
    cases task <;> cases h <;> exact ⟨rfl, rfl⟩

theorem StoppedBy.next? (h : StoppedBy setup m interruption) :
    ∃ tasks, Moment.next? setup m = some ⟨tasks, m.session, some interruption⟩ := by
  cases h with
  | @failed _ name n behind _ hat hlook =>
    refine ⟨behind, ?_⟩
    rw [next?_of_at hat, hlook]
  | @full name block nodes tasks s hblock hfull =>
    refine ⟨.render name nodes :: tasks, ?_⟩
    show some (start setup name (.render name nodes :: tasks) s block) = _
    rw [start_of_full hblock hfull]

/-- The steps of a running rendering that is not stopped: a look-up that finds, and steps that
look nothing up. Those are the same in every setup whose limit leaves as much room. -/
inductive Steps (setup : Setup) : Moment → Moment → Prop
  | found {m : Moment} {name : String} {n : Node} {behind : List Task} {finding : Finding}
      (hat : m.At name n behind) (h : m.view.look setup name n = .ok finding) :
      Steps setup m (goOn name behind m.session n finding)
  | text {name : String} {position : Position} {text : String} {nodes : List Node}
      {tasks : List Task} {s : Session} :
      Steps setup ⟨.render name (.text position text :: nodes) :: tasks, s, none⟩
        (say (.render name nodes :: tasks) text s)
  | comment {name : String} {position : Position} {text : String} {nodes : List Node}
      {tasks : List Task} {s : Session} :
      Steps setup ⟨.render name (.comment position text :: nodes) :: tasks, s, none⟩
        ⟨.render name nodes :: tasks, s, none⟩
  | enter {name : String} {block : Node} {nodes : List Node} {tasks : List Task} {s : Session}
      {depth : Depth} (hblock : block.isLeaf = false) (h : s.depth.enter? = some depth) :
      Steps setup ⟨.render name (block :: nodes) :: tasks, s, none⟩
        ⟨.look name block :: .leave block :: .render name nodes :: tasks, { s with depth }, none⟩
  | turn {name item : String} {index : Option String} {body : List Node} {turn : Value × Nat}
      {turns : List (Value × Nat)} {tasks : List Task} {s : Session} :
      Steps setup ⟨.turns name item index body (turn :: turns) :: tasks, s, none⟩
        ⟨.render name body :: .unbind :: .turns name item index body turns :: tasks,
          { s with context := s.context.push (RenderM.turnBindings item index turn) }, none⟩
  | rendered {name : String} {tasks : List Task} {s : Session} :
      Steps setup ⟨.render name [] :: tasks, s, none⟩ ⟨tasks, s, none⟩
  | turned {name item : String} {index : Option String} {body : List Node} {tasks : List Task}
      {s : Session} :
      Steps setup ⟨.turns name item index body [] :: tasks, s, none⟩ ⟨tasks, s, none⟩
  | leaf {name : String} {n : Node} {tasks : List Task} {s : Session} (hleaf : n.isLeaf = true) :
      Steps setup ⟨.look name n :: tasks, s, none⟩ ⟨tasks, s, none⟩
  | undo {task : Task} {undo : Session → Session} {tasks : List Task} {s : Session}
      (htask : task.undo? = some undo) :
      Steps setup ⟨task :: tasks, s, none⟩ ⟨tasks, undo s, none⟩

/-- Whatever is done next in a running rendering stops it or is one of its steps. -/
theorem next?_cases (hm : m.interruption = none) (h : next? setup m = some m') :
    (∃ interruption, StoppedBy setup m interruption) ∨ Steps setup m m' := by
  have hlook {name : String} {n : Node} {behind : List Task} (hat : m.At name n behind) :
      (∃ interruption, StoppedBy setup m interruption) ∨ Steps setup m m' := by
    rw [next?_of_at hat] at h
    cases hl : m.view.look setup name n with
    | error interruption => exact .inl ⟨interruption, .failed hat hl⟩
    | ok finding =>
      rw [hl] at h
      obtain rfl := Option.some_inj.mp h
      exact .inr (.found hat hl)
  obtain ⟨_ | ⟨task, tasks⟩, s, _⟩ := m
  · cases h
  subst hm
  cases hundo : task.undo? with
  | some undo =>
    simp only [next?, hundo, Option.some.injEq] at h
    subst h
    exact .inr (.undo hundo)
  | none =>
    cases task with
    | unbind | restore | leave => cases hundo
    | turns name item index body turns =>
      cases turns with
      | nil => cases h; exact .inr .turned
      | cons turn turns => cases h; exact .inr .turn
    | look name block =>
      cases hblock : block.isLeaf with
      | false => exact hlook (.block hblock)
      | true =>
        cases block with
        | text | comment | value => cases h; exact .inr (.leaf rfl)
        | ifBlock | forBlock | withBlock | call => cases hblock
    | render name nodes =>
      cases nodes with
      | nil => cases h; exact .inr .rendered
      | cons n nodes =>
        have henter (hblock : n.isLeaf = false) :
            (∃ interruption, StoppedBy setup ⟨.render name (n :: nodes) :: tasks, s, none⟩
              interruption) ∨ Steps setup ⟨.render name (n :: nodes) :: tasks, s, none⟩ m' := by
          have hstart : some (start setup name (.render name nodes :: tasks) s n) = some m' := h
          cases hdepth : s.depth.enter? with
          | none => exact .inl ⟨_, .full hblock hdepth⟩
          | some depth =>
            rw [start_of_enter hblock hdepth] at hstart
            obtain rfl := Option.some_inj.mp hstart
            exact .inr (.enter hblock hdepth)
        cases n with
        | text => cases h; exact .inr .text
        | comment => cases h; exact .inr .comment
        | value => exact hlook .value
        | ifBlock | forBlock | withBlock | call => exact henter rfl

theorem Steps.interruption_eq (h : Steps setup m m') :
    m.interruption = none ∧ m'.interruption = none := by
  cases h with
  | @found m name n behind finding hat =>
    exact ⟨hat.interruption_eq, goOn_interruption name behind m.session n finding⟩
  | text | comment | enter | turn | rendered | turned | leaf | undo => exact ⟨rfl, rfl⟩

theorem suffix_undo {task : Task} {undo : Session → Session} (h : task.undo? = some undo)
    (s : Session) : (undo s).output = s.output := by
  cases task <;> cases h <;> rfl

theorem Steps.suffix (h : Steps setup m m') : m.session.output <:+ m'.session.output := by
  cases h with
  | @found m name n behind finding => exact suffix_goOn name behind m.session n finding
  | text => exact List.suffix_cons _ _
  | comment | enter | turn | rendered | turned | leaf => exact List.suffix_rfl
  | @undo task undo tasks s htask =>
    have houtput : (undo s).output = s.output := suffix_undo htask s
    exact houtput ▸ List.suffix_rfl

end Step

section Run

variable {setup : Setup} {m m' : Moment} {interruption : Interruption}

theorem Leads.stopped (h : Leads setup m m') (hm : m.interruption = some interruption) :
    m'.interruption = some interruption ∧ m'.session.output = m.session.output := by
  induction h with
  | refl => exact ⟨hm, rfl⟩
  | tail _ hnext ih =>
    obtain ⟨hstopped, houtput⟩ := next?_stopped ih.1 hnext
    exact ⟨hstopped, houtput.trans ih.2⟩

/-- What was said stays, and more is said behind it. -/
theorem Leads.suffix (h : Leads setup m m') : m.session.output <:+ m'.session.output := by
  induction h with
  | refl => exact List.suffix_rfl
  | @tail b c _ hnext ih =>
    apply ih.trans
    cases hb : b.interruption with
    | some interruption =>
      have houtput := (next?_stopped hb hnext).2
      exact houtput ▸ List.suffix_rfl
    | none =>
      rcases next?_cases hb hnext with ⟨interruption, hstop⟩ | hsteps
      · obtain ⟨tasks, hstopped⟩ := hstop.next?
        obtain rfl := Option.some_inj.mp (hnext.symm.trans hstopped)
        exact List.suffix_rfl
      · exact hsteps.suffix

/-- A run of a running rendering goes on step by step, or there is a moment on it that stops it. -/
theorem Leads.exists_stoppedBy (h : Leads setup m m') (hm : m.interruption = none)
    (hm' : m'.interruption = some interruption) :
    ∃ k, Leads setup m k ∧ StoppedBy setup k interruption := by
  induction h with
  | refl => exact absurd (hm.symm.trans hm') (by simp)
  | @tail b c hleads hnext ih =>
    cases hb : b.interruption with
    | some interruption' =>
      have hsame := (next?_stopped hb hnext).1
      obtain rfl := Option.some_inj.mp (hsame.symm.trans hm')
      exact ih hb
    | none =>
      rcases next?_cases hb hnext with ⟨interruption', hstop⟩ | hsteps
      · obtain ⟨tasks, hstopped⟩ := hstop.next?
        obtain rfl := Option.some_inj.mp (hnext.symm.trans hstopped)
        obtain rfl := Option.some_inj.mp hm'
        exact ⟨b, hleads, hstop⟩
      · exact absurd (hsteps.interruption_eq.2.symm.trans hm') (by simp)

/-- What the first moment of a run has and every step keeps, the last one has if it is running. -/
theorem Leads.running {P : Moment → Prop} (h : Leads setup m m') (hm' : m'.interruption = none)
    (hm : P m) (hstep : ∀ k k', Steps setup k k' → P k → P k') : P m' := by
  induction h with
  | refl => exact hm
  | @tail b c _ hnext ih =>
    cases hb : b.interruption with
    | some interruption =>
      exact absurd ((next?_stopped hb hnext).1.symm.trans hm') (by simp)
    | none =>
      rcases next?_cases hb hnext with ⟨interruption, hstop⟩ | hsteps
      · obtain ⟨tasks, hstopped⟩ := hstop.next?
        obtain rfl := Option.some_inj.mp (hnext.symm.trans hstopped)
        cases hm'
      · exact hstep b c hsteps (ih hb)

/-- The end of a run that was stopped at a moment: the interruption, and what was said by then. -/
theorem render_of_stoppedBy {t : Template} {limit : Int} {root : Value}
    (h : Leads setup (begun t limit root) m) (hstop : StoppedBy setup m interruption) :
    t.render setup limit root = ⟨m.session.output.reverse, some interruption⟩ := by
  obtain ⟨tasks, hnext⟩ := hstop.next?
  have hbeyond : Leads setup (begun t limit root) ⟨tasks, m.session, some interruption⟩ :=
    Relation.ReflTransGen.tail h hnext
  obtain ⟨hend, houtput⟩ := (leads_done hbeyond).stopped rfl
  have hchunks : (t.render setup limit root).chunks = m.session.output.reverse := by
    rw [← List.reverse_inj, List.reverse_reverse]
    exact houtput
  calc t.render setup limit root
      = ⟨(t.render setup limit root).chunks, (t.render setup limit root).interruption⟩ := rfl
    _ = ⟨m.session.output.reverse, some interruption⟩ := by rw [hchunks]; exact congrArg _ hend

/-- A rendering ends with an interruption exactly if it gets to a moment that this one stops. -/
theorem interruption_eq_some_iff {t : Template} {limit : Int} {root : Value} :
    (t.render setup limit root).interruption = some interruption ↔
      ∃ m, Leads setup (begun t limit root) m ∧ StoppedBy setup m interruption := by
  constructor
  · intro h
    exact (leads_render t setup limit root).exists_stoppedBy rfl h
  · rintro ⟨m, hleads, hstop⟩
    rw [render_of_stoppedBy hleads hstop]

end Run

end Moment

end TextTemplate
