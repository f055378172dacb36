import TextTemplate.Proofs.Meaning

/-! Rendering gives a template its meaning. Actions that only look something up leave the session
alone and answer as the environment of its context does; every other action adds a text to the
output and puts the context and the depth back, whatever ends it. -/

namespace TextTemplate

namespace Environment

@[simp] theorem bindAll_current (ρ : Environment) (bindings : List (String × Value)) :
    (ρ.bindAll bindings).current = ρ.current := by
  induction bindings generalizing ρ with
  | nil => rfl
  | cons binding rest ih => exact ih (ρ.bind binding.1 binding.2)

/-- Names that are bound one after the other shadow the names around them as one map does. -/
theorem bindAll_bound (ρ outer : Environment) (m : NameMap Value)
    (h : ∀ key, ρ.bound key = (m.get? key).or (outer.bound key))
    (bindings : List (String × Value)) (key : String) :
    (ρ.bindAll bindings).bound key =
      ((bindings.foldl (fun m binding => m.put binding.1 binding.2) m).get? key).or
        (outer.bound key) := by
  induction bindings generalizing ρ m with
  | nil => exact h key
  | cons binding rest ih =>
    apply ih
    intro key
    rw [NameMap.get?_put]
    by_cases hk : key = binding.1
    · simp [bind, hk]
    · simp [bind, hk, h key]

theorem turn_eq_bindAll (ρ : Environment) (item : String) (index : Option String) (v : Value)
    (n : Nat) : ρ.turn item index v n = ρ.bindAll (RenderM.turnBindings item index (v, n)) := by
  cases index with
  | none => rfl
  | some name =>
    by_cases hn : name = ""
    · simp [turn, RenderM.turnBindings, hn, bindAll, Option.filter]
    · simp [turn, RenderM.turnBindings, hn, bindAll, Option.filter]

end Environment

namespace Context

def environment (c : Context) : Environment := ⟨c.current, c.lookup?⟩

theorem environment_push (c : Context) (bindings : List (String × Value)) :
    (c.push bindings).environment = c.environment.bindAll bindings := by
  have hcurrent := c.environment.bindAll_current bindings
  have hbound := Environment.bindAll_bound c.environment c.environment []
    (by simp [NameMap.get?]) bindings
  refine (Environment.mk.injEq ..).mpr ⟨hcurrent.symm, ?_⟩
  funext key
  refine Eq.trans ?_ (hbound key).symm
  simp only [lookup?, push, List.findSome?_cons, NameMap.ofList, environment]
  cases NameMap.get? (bindings.foldl (fun m binding => m.put binding.1 binding.2) []) key <;> rfl

theorem environment_called (current : Value) (bindings : List (String × Value)) :
    (called current bindings).environment = (Environment.root current).bindAll bindings := by
  have hroot : (root current).environment = .root current := rfl
  cases bindings with
  | nil => exact hroot
  | cons binding rest =>
    show ((root current).push (binding :: rest)).environment = _
    rw [environment_push, hroot]

theorem resolve_eq_environment (c : Context) (p : Path) :
    c.resolve p = c.environment.resolve p := by
  simp only [resolve, startOf, Environment.resolve, environment]
  cases p.rootName? with
  | none => rfl
  | some name => cases hl : c.lookup? name <;> simp [hl]

end Context

theorem run_bind {ε σ α β : Type} (x : ExceptT ε (StateM σ) α) (f : α → ExceptT ε (StateM σ) β)
    (s : σ) :
    (x >>= f).run s =
      match x.run s with
      | (.ok a, s') => (f a).run s'
      | (.error e, s') => (.error e, s') := by
  simp only [ExceptT.run, bind, ExceptT.bind, ExceptT.mk, StateT.bind]
  cases x s with
  | mk result s' => cases result <;> rfl

namespace RenderM

open Meaning

/-- The action answers and changes nothing. -/
def Looks {α : Type} (action : RenderM α) (s : Session) (answer : Answer α) : Prop :=
  action.run s = (answer, s)

section Looks

variable {α β : Type} {s : Session}

theorem looks_pure (a : α) (s : Session) : Looks (pure a) s (.ok a) := rfl

theorem looks_fail (name : String) (position : Position) (fault : RenderFault) (s : Session) :
    Looks (α := α) (fail name position fault) s (.error (.error ⟨fault, position, name⟩)) := rfl

theorem looks_throw (interruption : Interruption) (s : Session) :
    Looks (α := α) (throw interruption) s (.error interruption) := rfl

theorem looks_get (s : Session) : Looks get s (.ok s) := rfl

theorem Looks.bind {x : RenderM α} {f : α → RenderM β} {answer : Answer α} {g : α → Answer β}
    (hx : Looks x s answer) (hf : ∀ a, Looks (f a) s (g a)) :
    Looks (x >>= f) s (answer >>= g) := by
  rw [Looks, run_bind, hx]
  cases answer with
  | error interruption => rfl
  | ok a => exact hf a

theorem looks_mapM {f : α → RenderM β} {g : α → Answer β} (h : ∀ a, Looks (f a) s (g a))
    (as : List α) : Looks (as.mapM f) s (as.mapM g) := by
  induction as with
  | nil => exact looks_pure [] s
  | cons a as ih =>
    rw [List.mapM_cons, List.mapM_cons]
    exact (h a).bind fun b => ih.bind fun bs => looks_pure (b :: bs) s

theorem looks_resolve (name : String) (position : Position) (path : Path) (s : Session) :
    Looks (resolve name position path) s (s.context.environment.find name position path) := by
  rw [Looks, resolve, run_bind, looks_get]
  simp only [Context.resolve_eq_environment, Environment.find]
  cases s.context.environment.resolve path with
  | ok v => rfl
  | error fault => cases fault <;> rfl

theorem looks_condition (setup : Setup) (name : String) (position : Position) (path : Path)
    (s : Session) :
    Looks (condition setup name position path) s
      (s.context.environment.findCondition setup name position path) := by
  cases hs : setup.strictConditions with
  | true =>
    simpa [condition, Environment.findCondition, hs] using looks_resolve name position path s
  | false =>
    simp only [Looks, condition, hs, Environment.findCondition, Environment.find]
    rw [if_neg (by simp), run_bind, looks_get]
    simp only [Context.resolve_eq_environment]
    cases s.context.environment.resolve path with
    | ok v => rfl
    | error fault => cases fault <;> rfl

theorem looks_format (setup : Setup) (name : String) (position : Position) (path : Path)
    (formatter : Option FormatterCall) (s : Session) :
    Looks (format setup name position path formatter) s
      (s.context.environment.format setup name position path formatter) := by
  refine (looks_resolve name position path s).bind fun v => ?_
  dsimp only
  generalize formatter.getD ⟨setup.defaultFormatter, []⟩ = call
  cases setup.formatters.get? call.name with
  | none => exact looks_fail name position _ s
  | some f =>
    dsimp only
    cases f.signature.bind (·.fault? call.arguments.length) with
    | some fault => exact looks_fail name position _ s
    | none =>
      simp only [applyFormatter]
      cases f.run v call.arguments with
      | ok result =>
        cases result with
        | text text => exact looks_pure text s
        | other datum => exact looks_fail name position _ s
      | error failure =>
        cases failure with
        | fault fault => exact looks_fail name position _ s
        | integer fault => exact looks_throw _ s
        | crash reason => exact looks_throw _ s

theorem looks_selectBranch (setup : Setup) (name : String) (position : Position) (path : Path)
    (body : List Node) (otherwise : Option (List Node)) (s : Session) :
    Looks (selectBranch setup name position path body otherwise) s
      (s.context.environment.findBranch setup name position path body otherwise) := by
  fun_induction Environment.findBranch s.context.environment setup name position path body
    otherwise with
  | case1 position path body otherwise ih =>
    rw [selectBranch.eq_def]
    refine (looks_condition setup name position path s).bind fun v => ?_
    by_cases hv : v.isTruthy = true
    · simp only [hv, if_true]
      exact looks_pure body s
    · rw [if_neg hv, if_neg hv]
      split
      · exact looks_pure [] s
      · exact ih
      · rename_i nodes hchain
        split
        · rename_i hnodes
          exact absurd (Option.some.inj hnodes) (hchain _ _ _ _)
        · exact looks_pure nodes s

theorem looks_arguments (name : String) (position : Position) (arguments : List (String × Path))
    (s : Session) :
    Looks (resolveArguments name position arguments) s
      (s.context.environment.findAll name position arguments) := by
  refine looks_mapM (fun argument => ?_) arguments
  have h := (looks_resolve name position argument.2 s).bind
    fun v => looks_pure (argument.1, v) s
  cases hv : s.context.environment.find name position argument.2 with
  | ok v => rw [hv] at h; exact h
  | error interruption => rw [hv] at h; exact h

theorem looks_root (name : String) (position : Position) (root : Option Path) (s : Session) :
    Looks (calledRoot name position root) s
      (s.context.environment.findRoot name position root) := by
  cases root with
  | some path => exact looks_resolve name position path s
  | none => rfl

theorem looks_items (name : String) (position : Position) (source : Path) (s : Session) :
    Looks (items name position source) s
      (s.context.environment.findItems name position source) := by
  refine (looks_resolve name position source s).bind fun v => ?_
  cases v <;> rfl

theorem looks_called (setup : Setup) (name : String) (position : Position) (template : String)
    (s : Session) :
    Looks (called setup name position template) s
      (Environment.findTemplate setup name position template) := by
  simp only [called, Environment.findTemplate]
  cases setup.library.bind (·.get? template) <;> rfl

end Looks

def outcome (m : Meaning) : Answer Unit :=
  match m.interruption with
  | none => .ok ()
  | some interruption => .error interruption

/-- The action adds the text of the meaning to the output, ends as the meaning does, and leaves the
context and the depth as they were. -/
def Means (action : RenderM Unit) (s : Session) (m : Meaning) : Prop :=
  ∃ chunks : List String, String.join chunks.reverse = m.text ∧
    action.run s = (outcome m, { s with output := chunks ++ s.output })

section Means

variable {α β : Type} {s : Session}

theorem given_bind (answer : Answer α) (f : α → Answer β) (m : β → Meaning) :
    given (answer >>= f) m = given answer fun a => given (f a) m := by
  cases answer <;> rfl

theorem means_pure (s : Session) : Means (pure ()) s (saying "") := ⟨[], rfl, rfl⟩

theorem means_emit (text : String) (s : Session) : Means (emit text) s (saying text) :=
  ⟨[text], by simp [saying, String.join], rfl⟩

theorem Looks.stops {x : RenderM Unit} {interruption : Interruption}
    (hx : Looks x s (.error interruption)) : Means x s (stops interruption) := ⟨[], rfl, hx⟩

theorem Looks.means {x : RenderM α} {f : α → RenderM Unit} {answer : Answer α} {m : α → Meaning}
    (hx : Looks x s answer) (hf : ∀ a, answer = .ok a → Means (f a) s (m a)) :
    Means (x >>= f) s (given answer m) := by
  cases answer with
  | error interruption =>
    refine ⟨[], rfl, ?_⟩
    rw [run_bind, hx]
    rfl
  | ok a =>
    obtain ⟨chunks, htext, hrun⟩ := hf a rfl
    refine ⟨chunks, htext, ?_⟩
    rw [run_bind, hx]
    exact hrun

theorem Means.append {x y : RenderM Unit} {m n : Meaning} (hx : Means x s m)
    (hy : ∀ s', s'.context = s.context → s'.depth = s.depth → Means y s' n) :
    Means (do x; y) s (m.append n) := by
  obtain ⟨chunks, htext, hrun⟩ := hx
  obtain ⟨text, interruption⟩ := m
  cases interruption with
  | some interruption =>
    refine ⟨chunks, htext, ?_⟩
    rw [run_bind, hrun]
    rfl
  | none =>
    obtain ⟨more, hmore, hrun'⟩ := hy { s with output := chunks ++ s.output } rfl rfl
    refine ⟨more ++ chunks, ?_, ?_⟩
    · rw [List.reverse_append, String.join_append, htext, hmore]
      rfl
    · rw [run_bind, hrun]
      simp only [outcome, hrun', List.append_assoc]
      rfl

theorem means_forM {f : α → RenderM Unit} {m : α → Meaning} {as : List α}
    (h : ∀ a ∈ as, ∀ s', s'.context = s.context → s'.depth = s.depth → Means (f a) s' (m a)) :
    Means (as.forM f) s (concat (as.map m)) := by
  induction as generalizing s with
  | nil => exact means_pure s
  | cons a as ih =>
    refine (h a (by simp) s rfl rfl).append fun s' hcontext hdepth => ?_
    refine ih fun b hb t ht hd => ?_
    exact h b (by simp [hb]) t (ht.trans hcontext) (hd.trans hdepth)

theorem Means.nested {name : String} {position : Position} {action : RenderM Unit} {m : Meaning}
    (hlevel : s.depth.current < s.depth.limit)
    (h : Means action { s with depth := ⟨s.depth.limit, s.depth.current + 1⟩ } m) :
    Means (nested name position action) s m := by
  obtain ⟨chunks, htext, hrun⟩ := h
  refine ⟨chunks, htext, ?_⟩
  have henter : s.depth.enter? = some ⟨s.depth.limit, s.depth.current + 1⟩ := by
    rw [Depth.enter?, if_neg (by omega)]
  simp only [RenderM.nested, ExceptT.run_mk, henter, hrun, Depth.leave, Int.add_sub_cancel]

theorem Means.binding {bindings : List (String × Value)} {action : RenderM Unit} {m : Meaning}
    (h : Means action { s with context := s.context.push bindings } m) :
    Means (binding bindings action) s m := by
  obtain ⟨chunks, htext, hrun⟩ := h
  refine ⟨chunks, htext, ?_⟩
  have hpop : (s.context.push bindings).pop? = some s.context := rfl
  simp only [RenderM.binding, ExceptT.run_mk, hrun, hpop, Option.getD_some]

theorem Means.inside {context : Context} {action : RenderM Unit} {m : Meaning}
    (h : Means action { s with context } m) : Means (inside context action) s m := by
  obtain ⟨chunks, htext, hrun⟩ := h
  refine ⟨chunks, htext, ?_⟩
  simp only [RenderM.inside, ExceptT.run_mk, hrun]

end Means

/-- A session has levels left up to its limit. -/
def LevelsLeft (levels : Nat) (s : Session) : Prop :=
  levels = (s.depth.limit - s.depth.current).toNat

theorem means_nodes {setup : Setup} {levels : Nat}
    (h : ∀ (name : String) (n : Node) (s : Session), LevelsLeft levels s →
      Means (node setup levels name n) s
        (nodeMeaning setup s.depth.limit levels name s.context.environment n))
    (name : String) (nodes : List Node) {s : Session} (hs : LevelsLeft levels s) :
    Means (nodes.forM (node setup levels name)) s
      (concat (nodes.map (nodeMeaning setup s.depth.limit levels name s.context.environment))) := by
  refine means_forM fun n _ s' hcontext hdepth => ?_
  have hn := h name n s' (by rw [LevelsLeft, hdepth]; exact hs)
  rwa [hcontext, hdepth] at hn

/-- A node that needs no level means the same however many are left. -/
theorem means_node (setup : Setup) (levels : Nat) (name : String) (n : Node) (s : Session)
    (hs : LevelsLeft levels s) :
    Means (node setup levels name n) s
      (nodeMeaning setup s.depth.limit levels name s.context.environment n) := by
  -- A block or a call renders its nodes with one level less, so cycles of calls end as well.
  induction levels generalizing name n s with
  | zero =>
    have hblock (position : Position) : Means
        (do throw (.tooDeep (← get).depth.limit position name)) s
        (stops (.tooDeep s.depth.limit position name)) :=
      ((looks_get s).bind fun s' => looks_throw _ s).stops
    cases n with
    | text position text => exact means_emit text s
    | comment position text => exact means_pure s
    | value position path formatter =>
      exact (looks_format setup name position path formatter s).means fun text _ =>
        means_emit text s
    | ifBlock position => exact hblock position
    | forBlock position => exact hblock position
    | withBlock position => exact hblock position
    | call position => exact hblock position
  | succ levels ih =>
    have hlevel : s.depth.current < s.depth.limit := by
      simp only [LevelsLeft] at hs
      omega
    have hinner : LevelsLeft levels
        { s with depth := ⟨s.depth.limit, s.depth.current + 1⟩ } := by
      simp only [LevelsLeft] at hs ⊢
      omega
    cases n with
    | text position text => exact means_emit text s
    | comment position text => exact means_pure s
    | value position path formatter =>
      exact (looks_format setup name position path formatter s).means fun text _ =>
        means_emit text s
    | ifBlock position path body otherwise =>
      refine Means.nested hlevel ?_
      refine (looks_selectBranch setup name position path body otherwise _).means ?_
      intro nodes _
      exact means_nodes ih name nodes hinner
    | forBlock position item index source body =>
      refine Means.nested hlevel ?_
      refine (looks_items name position source _).means ?_
      intro items _
      refine means_forM fun ⟨v, i⟩ _ ⟨context, depth, output⟩ hcontext hdepth => ?_
      dsimp only at hcontext hdepth
      subst hcontext hdepth
      refine Means.binding ?_
      have hbody := means_nodes ih name body
        (s := ⟨s.context.push (turnBindings item index (v, i)),
          ⟨s.depth.limit, s.depth.current + 1⟩, output⟩) hinner
      dsimp only at hbody
      rw [Context.environment_push, ← Environment.turn_eq_bindAll] at hbody
      exact hbody
    | withBlock position bound source body =>
      refine Means.nested hlevel ?_
      refine (looks_resolve name position source _).means ?_
      intro v _
      refine Means.binding ?_
      have hbody := means_nodes ih name body
        (s := ⟨s.context.push [(bound, v)], ⟨s.depth.limit, s.depth.current + 1⟩, s.output⟩) hinner
      dsimp only at hbody
      rw [Context.environment_push] at hbody
      exact hbody
    | call position template root arguments =>
      refine Means.nested hlevel ?_
      refine (looks_called setup name position template _).means ?_
      intro t _
      rw [Environment.callee, given_bind]
      refine (looks_root name position root _).means ?_
      intro current _
      rw [given_bind]
      refine (looks_arguments name position arguments _).means ?_
      intro bindings _
      refine Means.inside ?_
      have hbody := means_nodes ih t.name t.nodes
        (s := ⟨.called current bindings, ⟨s.depth.limit, s.depth.current + 1⟩, s.output⟩) hinner
      dsimp only at hbody
      rw [Context.environment_called] at hbody
      exact hbody

theorem levelsLeft_start (limit : Int) (root : Value) :
    LevelsLeft limit.toNat ⟨.root root, .start limit, []⟩ := by
  simp [LevelsLeft, Depth.start]

theorem means_template (t : Template) (setup : Setup) (limit : Int) (root : Value) :
    Means (t.nodes.forM (node setup limit.toNat t.name)) ⟨.root root, .start limit, []⟩
      (t.meaning setup limit root) :=
  means_nodes (means_node setup limit.toNat) t.name t.nodes (levelsLeft_start limit root)

end RenderM

theorem Template.exists_chunks (t : Template) (setup : Setup) (limit : Int) (root : Value) :
    ∃ chunks, String.join chunks = (t.meaning setup limit root).text ∧
      t.render setup limit root = ⟨chunks, (t.meaning setup limit root).interruption⟩ := by
  obtain ⟨chunks, htext, hrun⟩ := RenderM.means_template t setup limit root
  refine ⟨chunks.reverse, htext, ?_⟩
  rw [render, hrun]
  cases hm : (t.meaning setup limit root).interruption <;> simp [RenderM.outcome, hm]

/-- A rendering gives the text of the template's meaning and ends as the meaning does. -/
theorem Template.render_eq_meaning (t : Template) (setup : Setup) (limit : Int) (root : Value) :
    (t.render setup limit root).text = (t.meaning setup limit root).text ∧
      (t.render setup limit root).interruption = (t.meaning setup limit root).interruption := by
  obtain ⟨chunks, htext, hrender⟩ := t.exists_chunks setup limit root
  rw [hrender]
  exact ⟨htext, rfl⟩

end TextTemplate
