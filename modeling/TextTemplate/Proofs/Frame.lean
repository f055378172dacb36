import TextTemplate.Proofs.Moment

/-! What rendering leaves behind. An action that is ended by anything has taken its scopes off and
left its levels, so its caller goes on as if only chunks had been added. -/

namespace TextTemplate

/-- Nothing has changed but that chunks were put behind those there were. -/
structure Session.GrowsTo (s s' : Session) : Prop where
  context_eq : s'.context = s.context
  depth_eq : s'.depth = s.depth
  suffix : s.output <:+ s'.output

namespace Session.GrowsTo

theorem refl (s : Session) : s.GrowsTo s := ⟨rfl, rfl, List.suffix_rfl⟩

theorem trans {s s' s'' : Session} (h : s.GrowsTo s') (h' : s'.GrowsTo s'') : s.GrowsTo s'' :=
  ⟨h'.context_eq.trans h.context_eq, h'.depth_eq.trans h.depth_eq, h.suffix.trans h'.suffix⟩

end Session.GrowsTo

namespace RenderM

open Session

/-- The action keeps the session of its caller, whatever ends it. -/
def Keeps {α : Type} (action : RenderM α) : Prop :=
  ∀ s : Session, s.GrowsTo (action.run s).2

section Keeps

variable {α β : Type}

theorem keeps_of_looks {x : RenderM α} {answer : Session → Answer α}
    (h : ∀ s, Looks x s (answer s)) : Keeps x := by
  intro s
  rw [h s]
  exact .refl s

theorem keeps_emit (chunk : String) : Keeps (emit chunk) := by
  intro s
  exact ⟨rfl, rfl, List.suffix_cons chunk s.output⟩

theorem Keeps.bind {x : RenderM α} {f : α → RenderM β} (hx : Keeps x) (hf : ∀ a, Keeps (f a)) :
    Keeps (x >>= f) := by
  intro s
  have hstart := hx s
  rw [run_bind]
  cases hrun : x.run s with
  | mk result s' =>
    rw [hrun] at hstart
    cases result with
    | ok a => exact hstart.trans (hf a s')
    | error => exact hstart

theorem keeps_forM {f : α → RenderM Unit} (h : ∀ a, Keeps (f a)) (as : List α) :
    Keeps (as.forM f) := by
  induction as with
  | nil => exact keeps_of_looks (looks_pure ())
  | cons a as ih => exact (h a).bind fun _ => ih

/-- The level that was entered is left on every way out, and one that is refused was not entered. -/
theorem Keeps.nested {action : RenderM α} (h : Keeps action) (name : String)
    (position : Position) : Keeps (nested name position action) := by
  intro s
  cases henter : s.depth.enter? with
  | none =>
    have hrun : ((RenderM.nested name position action).run s).2 = s := by
      simp [RenderM.nested, ExceptT.run_mk, henter]
    rw [hrun]
    exact .refl s
  | some depth =>
    obtain ⟨hcontext, hdepth, hsuffix⟩ := h { s with depth }
    rw [run_nested name position action henter]
    refine ⟨hcontext, ?_, hsuffix⟩
    simp only [Depth.enter?, Option.ite_none_left_eq_some, Option.some.injEq] at henter
    obtain ⟨-, rfl⟩ := henter
    simp [hdepth, Depth.leave]

/-- The scope that is popped is the one that was pushed, since the action has popped its own. -/
theorem Keeps.binding {action : RenderM α} (h : Keeps action) (bindings : List (String × Value)) :
    Keeps (binding bindings action) := by
  intro s
  obtain ⟨hcontext, hdepth, hsuffix⟩ := h { s with context := s.context.push bindings }
  refine ⟨?_, hdepth, hsuffix⟩
  have hpop : (s.context.push bindings).pop? = some s.context := rfl
  show (((action.run _).2.context).pop?.getD _) = s.context
  rw [hcontext, hpop, Option.getD_some]

theorem Keeps.inside {action : RenderM α} (h : Keeps action) (context : Context) :
    Keeps (inside context action) := by
  intro s
  obtain ⟨-, hdepth, hsuffix⟩ := h { s with context }
  exact ⟨rfl, hdepth, hsuffix⟩

end Keeps

section Render

variable {setup : Setup} {levels : Nat}

theorem keeps_nodes (h : ∀ name n, Keeps (node setup levels name n)) (name : String)
    (nodes : List Node) : Keeps (nodes.forM (node setup levels name)) :=
  keeps_forM (h name) nodes

theorem keeps_within (h : ∀ name n, Keeps (node setup levels name n)) (name : String)
    (block : Node) : Keeps (within setup levels name block) := by
  cases block with
  | text | comment | value => exact keeps_of_looks (looks_pure ())
  | ifBlock position path body otherwise =>
    refine (keeps_of_looks (looks_selectBranch setup name position path body otherwise)).bind ?_
    exact keeps_nodes h name
  | forBlock position item index source body =>
    refine (keeps_of_looks (looks_items name position source)).bind fun items => ?_
    exact keeps_forM (fun turn => (keeps_nodes h name body).binding _) items.zipIdx
  | withBlock position bound source body =>
    refine (keeps_of_looks (looks_resolve name position source)).bind fun v => ?_
    exact (keeps_nodes h name body).binding [(bound, v)]
  | call position template root arguments =>
    refine (keeps_of_looks (looks_callee setup name position template root arguments)).bind ?_
    intro found
    exact (keeps_nodes h found.1.name found.1.nodes).inside found.2

theorem keeps_leaf {n : Node} (h : n.isLeaf = true) (name : String) :
    Keeps (node setup levels name n) := by
  cases n with
  | text position text => cases levels <;> exact keeps_emit text
  | comment => cases levels <;> exact keeps_of_looks (looks_pure ())
  | value position path formatter =>
    have hlooks := keeps_of_looks (looks_format setup name position path formatter)
    cases levels <;> exact hlooks.bind keeps_emit
  | ifBlock | forBlock | withBlock | call => cases h

theorem keeps_node (setup : Setup) (levels : Nat) (name : String) (n : Node) :
    Keeps (node setup levels name n) := by
  -- What a block or a call renders has one level less, whichever template it belongs to.
  induction levels generalizing name n with
  | zero =>
    cases hleaf : n.isLeaf with
    | true => exact keeps_leaf hleaf name
    | false =>
      intro s
      rw [run_node_zero setup name s hleaf]
      exact .refl s
  | succ levels ih =>
    cases hleaf : n.isLeaf with
    | true => exact keeps_leaf hleaf name
    | false =>
      rw [node_succ setup levels name hleaf]
      exact (keeps_within ih name n).nested name n.position

/-- Rendering a list of nodes keeps the session of its caller: its scopes, its current value and its
depth are as they were and its chunks are still there, whether the nodes end or anything stops
them. -/
theorem growsTo_render_nodes (setup : Setup) (levels : Nat) (name : String) (nodes : List Node)
    (s : Session) : s.GrowsTo ((nodes.forM (node setup levels name)).run s).2 :=
  keeps_nodes (keeps_node setup levels) name nodes s

end Render

end RenderM

end TextTemplate
