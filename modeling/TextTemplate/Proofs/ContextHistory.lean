import Mathlib
import TextTemplate.Context
import TextTemplate.Proofs.Parts
import TextTemplate.Proofs.Machine

/-! The contexts of a rendering over every history. They count their depth together, as each one
refers to the counter of the one that it comes from; apart from that, what happens to one of them
cannot be noticed by another. -/

namespace TextTemplate

namespace Context

variable {c : Context} {name : String}

/-- The innermost scope that has the name binds it. -/
theorem lookup?_eq_some_iff {v : Value} : c.lookup? name = some v ↔
    ∃ inner scope outer, c.scopes = inner ++ scope :: outer ∧
      (∀ s ∈ inner, name ∉ NameMap.names s) ∧ NameMap.get? scope name = some v := by
  rw [lookup?, List.findSome?_eq_some_iff]
  simp only [NameMap.get?_eq_none_iff]
  tauto

theorem lookup?_eq_none_iff_not_mem :
    c.lookup? name = none ↔ ∀ scope ∈ c.scopes, name ∉ NameMap.names scope := by
  rw [lookup?, List.findSome?_eq_none_iff]
  simp only [NameMap.get?_eq_none_iff]

end Context

/-- What is done with a context. -/
inductive ContextEvent where
  | push (member : Nat) (bindings : List (String × Value))
  | pop (member : Nat)
  | enter (member : Nat)
  | leave (member : Nat)
  | child (member : Nat) (current : Value) (bindings : List (String × Value))

inductive ContextAnswer where
  | done
  | entered (success : Bool)
  | noScope
  deriving DecidableEq

/-- An event, or a scope with what is done while it is open. -/
inductive ContextAction where
  | single (e : ContextEvent)
  | scope (member : Nat) (bindings : List (String × Value)) (body : List ContextAction)

namespace ContextEvent

def member : ContextEvent → Nat
  | push member _ | pop member | enter member | leave member | child member _ _ => member

/-- The scopes that a new context begins with. -/
def scopesOfNew? : ContextEvent → Option (List Scope)
  | child _ _ bindings => some (if bindings.isEmpty then [] else [NameMap.ofList bindings])
  | _ => none

/-- Whether the event pushes or pops a scope of the context. -/
def moves (member : Nat) : ContextEvent → Bool
  | push m _ | pop m => m == member
  | _ => false

def isLeave : ContextEvent → Bool
  | leave _ => true
  | _ => false

/-- The scopes after a push or a pop. -/
def move (scopes : List Scope) : ContextEvent → List Scope
  | push _ bindings => NameMap.ofList bindings :: scopes
  | pop _ => scopes.tail
  | _ => scopes

/-- The scopes that each context began with. -/
def firstScopes (past : List ContextEvent) : List (List Scope) :=
  [] :: past.filterMap scopesOfNew?

/-- The scopes of a context by its own pushes and pops. -/
def ownScopes (past : List ContextEvent) (member : Nat) : Option (List Scope) :=
  (firstScopes past)[member]?.map fun scopes => (past.filter (moves member)).foldl move scopes

/-- The context was made before. -/
def Allowed (past : List ContextEvent) (e : ContextEvent) : Prop :=
  e.member < (firstScopes past).length

end ContextEvent

namespace ContextAction

mutual

def events : ContextAction → List ContextEvent
  | single e => [e]
  | scope member bindings body => .push member bindings :: (eventsOf body ++ [.pop member])

def eventsOf : List ContextAction → List ContextEvent
  | [] => []
  | action :: actions => action.events ++ eventsOf actions

end

end ContextAction

namespace ContextFamily

open ContextEvent

def respond : Machine ContextFamily ContextEvent ContextAnswer
  | f, .push member bindings => (.done, f.push member bindings)
  | f, .pop member =>
    match f.pop? member with
    | some f => (.done, f)
    | none => (.noScope, f)
  | f, .enter _ =>
    match f.enter? with
    | some f => (.entered true, f)
    | none => (.entered false, f)
  | f, .leave _ => (.done, f.leave)
  | f, .child _ current bindings => (.done, f.addCalled current bindings)

/-- The scopes of a member, if there is such a member. -/
def scopes? (f : ContextFamily) (member : Nat) : Option (List Scope) :=
  f.contexts[member]?.map Context.scopes

section Step

/-- Without a scope, nothing is popped and nothing changes. -/
theorem respond_pop (f : ContextFamily) (member : Nat) :
    respond f (.pop member) = (if (f.scopes? member).getD [] = [] then .noScope else .done,
      { f with contexts := f.contexts.modify member fun c =>
        { c with scopes := c.scopes.tail } }) := by
  cases hcontext : f.contexts[member]? with
  | none =>
    have hpop : f.pop? member = none := by
      rw [pop?, hcontext]
      rfl
    have hlength := List.getElem?_eq_none_iff.mp hcontext
    rw [respond, hpop, scopes?, hcontext, List.modify_eq_self hlength]
    rfl
  | some c =>
    rw [respond, scopes?, pop?, hcontext, modify_eq_set hcontext]
    obtain ⟨current, scopes⟩ := c
    cases scopes with
    | nil =>
      obtain ⟨hlt, hc⟩ := List.getElem?_eq_some_iff.mp hcontext
      have hset : f.contexts.set member ⟨current, []⟩ = f.contexts := by
        rw [← hc, List.set_getElem_self]
      show _ = (_, { f with contexts := f.contexts.set member ⟨current, []⟩ })
      rw [hset]
      rfl
    | cons scope outer => rfl

theorem respond_pop_of_nil {f : ContextFamily} {member : Nat} (h : f.scopes? member = some []) :
    respond f (.pop member) = (.noScope, f) := by
  obtain ⟨c, hc, hscopes⟩ := Option.map_eq_some_iff.mp h
  have hpop : f.pop? member = none := by
    rw [pop?, hc]
    simp [Context.pop?, hscopes]
  rw [respond, hpop]

theorem respond_enter (f : ContextFamily) (member : Nat) :
    respond f (.enter member) =
      if f.depth.limit ≤ f.depth.current then (.entered false, f)
      else
        (.entered true, { f with depth := { f.depth with current := f.depth.current + 1 } }) := by
  rw [respond, enter?, Depth.enter?]
  split_ifs with hlimit
  · rfl
  · rfl

theorem map_scopes_modify {g : Context → Context} {move : List Scope → List Scope}
    (hg : ∀ c, (g c).scopes = move c.scopes) (contexts : List Context) (i member : Nat) :
    (contexts.modify i g)[member]?.map Context.scopes =
      (contexts[member]?.map Context.scopes).map
        fun scopes => if i == member then move scopes else scopes := by
  rw [List.getElem?_modify]
  cases contexts[member]? with
  | none => rfl
  | some c => by_cases hi : i = member <;> simp [hi, hg]

/-- An event moves the scopes of its own context only. -/
theorem scopes?_respond (f : ContextFamily) {e : ContextEvent} (he : e.scopesOfNew? = none)
    (member : Nat) : (respond f e).2.scopes? member =
      (f.scopes? member).map fun scopes => if e.moves member then move scopes e else scopes := by
  cases e with
  | push i bindings => exact map_scopes_modify (fun _ => rfl) f.contexts i member
  | pop i =>
    rw [respond_pop]
    exact map_scopes_modify (fun _ => rfl) f.contexts i member
  | enter i =>
    have hcontexts : (respond f (.enter i)).2.contexts = f.contexts := by
      rw [respond_enter]
      split_ifs
      · rfl
      · rfl
    rw [scopes?, hcontexts]
    exact Option.map_id'.symm
  | leave => exact Option.map_id'.symm
  | child => cases he

theorem scopes?_respond_new (f : ContextFamily) {e : ContextEvent} {scopes : List Scope}
    (he : e.scopesOfNew? = some scopes) (member : Nat) : (respond f e).2.scopes? member =
      if member = f.contexts.length then some scopes else f.scopes? member := by
  cases e with
  | child i current bindings =>
    obtain rfl := Option.some.inj he
    have hcalled : (Context.called current bindings).scopes =
        if bindings.isEmpty then [] else [NameMap.ofList bindings] := by
      rw [Context.called]
      split_ifs
      · rfl
      · rfl
    rw [scopes?, respond, addCalled, getElem?_concat, ← hcalled]
    split_ifs
    · rfl
    · rfl
  | push | pop | enter | leave => cases he

theorem length_contexts_respond (f : ContextFamily) (e : ContextEvent) :
    (respond f e).2.contexts.length = f.contexts.length + e.scopesOfNew?.toList.length := by
  cases e with
  | push => simp [respond, push, scopesOfNew?]
  | pop => simp [respond_pop, scopesOfNew?]
  | enter =>
    rw [respond_enter]
    split_ifs
    · rfl
    · rfl
  | leave => simp [respond, ContextFamily.leave, scopesOfNew?]
  | child => simp [respond, addCalled, scopesOfNew?]

theorem depth_respond (f : ContextFamily) (e : ContextEvent) :
    (respond f e).2.depth = ⟨f.depth.limit, f.depth.current +
      (if (respond f e).1 = .entered true then 1 else 0) - if e.isLeave then 1 else 0⟩ := by
  cases e with
  | push => simp [respond, push, isLeave]
  | pop i =>
    have hanswer : (respond f (.pop i)).1 ≠ .entered true := by
      rw [respond_pop]
      split_ifs
      · exact ContextAnswer.noConfusion
      · exact ContextAnswer.noConfusion
    rw [if_neg hanswer, respond_pop]
    simp [isLeave]
  | enter =>
    rw [respond_enter]
    by_cases hlimit : f.depth.limit ≤ f.depth.current
    · simp [hlimit, isLeave]
    · simp [hlimit, isLeave]
  | leave => simp [respond, ContextFamily.leave, Depth.leave, isLeave]
  | child => simp [respond, addCalled, isLeave]

theorem lt_limit_of_entered {f : ContextFamily} {e : ContextEvent}
    (h : (respond f e).1 = .entered true) : f.depth.current < f.depth.limit := by
  cases e with
  | enter =>
    rw [respond_enter] at h
    split_ifs at h with hlimit
    · cases h
    · exact Int.not_le.mp hlimit
  | pop =>
    rw [respond_pop] at h
    split_ifs at h
  | push | leave | child => cases h

end Step

section Run

variable {past : List ContextEvent} {e : ContextEvent} {current : Value} {limit : Int}

theorem firstScopes_concat (past : List ContextEvent) (e : ContextEvent) :
    firstScopes (past ++ [e]) = firstScopes past ++ e.scopesOfNew?.toList := by
  cases h : e.scopesOfNew? <;> simp [firstScopes, h]

theorem length_contexts_after : (respond.after (start current limit) past).contexts.length =
    (firstScopes past).length := by
  induction past using List.reverseRecOn with
  | nil => rfl
  | append_singleton past e ih =>
    rw [Machine.after_concat, length_contexts_respond, ih, firstScopes_concat, List.length_append]

theorem depth_after : (respond.after (start current limit) past).depth =
    ⟨limit, ((respond.answers (start current limit) past).count (.entered true) : Int) -
      past.countP isLeave⟩ := by
  induction past using List.reverseRecOn with
  | nil => rfl
  | append_singleton past e ih =>
    rw [Machine.after_concat, Machine.answers_concat, depth_respond, ih, List.count_append,
      List.countP_append, List.count_singleton, List.countP_singleton]
    simp only [Depth.mk.injEq, true_and, beq_iff_eq]
    push_cast
    omega

theorem depth_le_after :
    (respond.after (start current limit) past).depth.current ≤ max limit 0 := by
  induction past using List.reverseRecOn with
  | nil => exact le_max_right limit 0
  | append_singleton past e ih =>
    rw [Machine.after_concat, depth_respond]
    have hlimit : (respond.after (start current limit) past).depth.limit = limit := by
      rw [depth_after]
    dsimp only
    split_ifs with hentered
    · omega
    · have hlt := lt_limit_of_entered hentered
      omega
    · omega
    · omega

theorem member_lt_of_mem (h : IsHistory Allowed past) (he : e ∈ past) :
    e.member < (firstScopes past).length := by
  obtain ⟨before, behind, rfl⟩ := List.append_of_mem he
  have hallowed : e.member < (firstScopes before).length :=
    h before e ⟨behind, by simp⟩
  simp only [firstScopes, List.filterMap_append, List.length_cons, List.length_append]
    at hallowed ⊢
  omega

/-- Nothing is pushed or popped on a context before it is made. -/
theorem filter_moves_eq_nil (h : IsHistory Allowed past) :
    past.filter (moves (firstScopes past).length) = [] := by
  refine List.filter_eq_nil_iff.mpr fun e he hmoves => ?_
  have hlt := member_lt_of_mem h he
  cases e with
  | push m | pop m =>
    have hm : m = (firstScopes past).length := by simpa [moves] using hmoves
    exact absurd hm (Nat.ne_of_lt hlt)
  | enter | leave | child => cases hmoves

theorem ownScopes_concat (he : e.scopesOfNew? = none) (member : Nat) :
    ownScopes (past ++ [e]) member = (ownScopes past member).map
      fun scopes => if e.moves member then move scopes e else scopes := by
  rw [ownScopes, ownScopes, firstScopes_concat, he, Option.toList_none, List.append_nil,
    Option.map_map, List.filter_append]
  congr 1
  funext scopes
  by_cases hmoves : e.moves member = true
  · simp [hmoves]
  · simp [hmoves]

theorem ownScopes_new {scopes : List Scope} (h : IsHistory Allowed past)
    (he : e.scopesOfNew? = some scopes) (member : Nat) :
    ownScopes (past ++ [e]) member =
      if member = (firstScopes past).length then some scopes else ownScopes past member := by
  have hmoves : e.moves member = false := by
    cases e with
    | child => rfl
    | push | pop | enter | leave => cases he
  have hfilter : (past ++ [e]).filter (moves member) = past.filter (moves member) := by
    rw [List.filter_append, List.filter_singleton, hmoves]
    exact List.append_nil _
  rw [ownScopes, ownScopes, firstScopes_concat, hfilter, he, Option.toList_some, getElem?_concat]
  split_ifs with hmember
  · subst hmember
    rw [filter_moves_eq_nil h]
    rfl
  · rfl

theorem scopes?_after (h : IsHistory Allowed past) (member : Nat) :
    (respond.after (start current limit) past).scopes? member = ownScopes past member := by
  induction past using List.reverseRecOn with
  | nil =>
    cases member with
    | zero => rfl
    | succ member => rfl
  | append_singleton past e ih =>
    have ih := ih (isHistory_concat.mp h).1
    rw [Machine.after_concat]
    cases hnew : e.scopesOfNew? with
    | none => rw [scopes?_respond _ hnew, ih, ownScopes_concat hnew]
    | some scopes =>
      rw [scopes?_respond_new _ hnew, ih, length_contexts_after,
        ownScopes_new (isHistory_concat.mp h).1 hnew]

end Run

end ContextFamily

/-- A context with the place of its counter. -/
structure LinkedContext where
  context : Context
  counter : Nat

/-- Contexts that may or may not have a counter together. -/
structure ContextHeap where
  members : List LinkedContext
  counters : List Depth

namespace ContextHeap

def start (current : Value) (limit : Int) : ContextHeap :=
  ⟨[⟨.root current, 0⟩], [.start limit]⟩

def counter? (heap : ContextHeap) (member : Nat) : Option Nat :=
  heap.members[member]?.map LinkedContext.counter

/-- The depth that a member reports. -/
def depth? (heap : ContextHeap) (member : Nat) : Option Depth :=
  (heap.counter? member).bind fun counter => heap.counters[counter]?

def updateContext (heap : ContextHeap) (member : Nat) (g : Context → Context) : ContextHeap :=
  { heap with members := heap.members.modify member fun linked =>
    { linked with context := g linked.context } }

def updateCounter (heap : ContextHeap) (member : Nat) (g : Depth → Depth) : ContextHeap :=
  match heap.counter? member with
  | some counter => { heap with counters := heap.counters.modify counter g }
  | none => heap

/-- Each event follows the link of its own context. A new context is linked to the counter of the
context that it comes from. -/
def respond : Machine ContextHeap ContextEvent ContextAnswer
  | heap, .push member bindings => (.done, heap.updateContext member (·.push bindings))
  | heap, .pop member =>
    match heap.members[member]?.bind fun linked => linked.context.pop? with
    | some c => (.done, heap.updateContext member fun _ => c)
    | none => (.noScope, heap)
  | heap, .enter member =>
    match (heap.depth? member).bind Depth.enter? with
    | some depth => (.entered true, heap.updateCounter member fun _ => depth)
    | none => (.entered false, heap)
  | heap, .leave member => (.done, heap.updateCounter member Depth.leave)
  | heap, .child member current bindings =>
    match heap.counter? member with
    | some counter =>
      (.done, { heap with members := heap.members ++ [⟨.called current bindings, counter⟩] })
    | none => (.done, heap)

end ContextHeap

namespace ContextFamily

open ContextEvent

/-- The contexts with one counter for all of them. -/
def linked (f : ContextFamily) : ContextHeap :=
  ⟨f.contexts.map (⟨·, 0⟩), [f.depth]⟩

section Linked

variable {f : ContextFamily} {member : Nat}

theorem counter?_linked (h : member < f.contexts.length) : f.linked.counter? member = some 0 := by
  rw [ContextHeap.counter?, linked, List.getElem?_map, List.getElem?_eq_getElem h]
  rfl

theorem depth?_linked (h : member < f.contexts.length) :
    f.linked.depth? member = some f.depth := by
  rw [ContextHeap.depth?, counter?_linked h]
  rfl

theorem updateContext_linked (f : ContextFamily) (member : Nat) (g : Context → Context) :
    f.linked.updateContext member g =
      linked { f with contexts := f.contexts.modify member g } := by
  rw [ContextHeap.updateContext, linked, linked, ContextHeap.mk.injEq]
  refine ⟨List.ext_getElem? fun i => ?_, rfl⟩
  rw [List.getElem?_map, List.getElem?_modify, List.getElem?_modify, List.getElem?_map]
  cases f.contexts[i]? with
  | none => rfl
  | some c => by_cases hi : member = i <;> simp [hi]

theorem updateCounter_linked (h : member < f.contexts.length) (g : Depth → Depth) :
    f.linked.updateCounter member g = linked { f with depth := g f.depth } := by
  rw [ContextHeap.updateCounter, counter?_linked h]
  rfl

/-- A member answers by its link what the family answers. -/
theorem respond_linked {e : ContextEvent} (h : e.member < f.contexts.length) :
    ContextHeap.respond f.linked e = ((respond f e).1, (respond f e).2.linked) := by
  cases e with
  | push i bindings =>
    rw [ContextHeap.respond, updateContext_linked]
    rfl
  | pop i =>
    have hcontext : f.contexts[i]? = some f.contexts[i] := List.getElem?_eq_getElem h
    have hlinked : f.linked.members[i]? = some ⟨f.contexts[i], 0⟩ := by
      rw [linked, List.getElem?_map, hcontext]
      rfl
    rw [ContextHeap.respond, respond, pop?, hlinked, hcontext]
    simp only [Option.bind_some, Option.bind_eq_bind]
    cases f.contexts[i].pop? with
    | none => rfl
    | some c =>
      dsimp only [Option.bind_some]
      rw [updateContext_linked, modify_eq_set hcontext]
      rfl
  | enter i =>
    have hi : i < f.contexts.length := h
    rw [ContextHeap.respond, respond, enter?, depth?_linked hi, Option.bind_some]
    cases f.depth.enter? with
    | none => rfl
    | some depth =>
      dsimp only
      rw [updateCounter_linked hi]
      rfl
  | leave i =>
    have hi : i < f.contexts.length := h
    rw [ContextHeap.respond, updateCounter_linked hi]
    rfl
  | child i current bindings =>
    have hi : i < f.contexts.length := h
    rw [ContextHeap.respond, counter?_linked hi, respond, addCalled, linked, linked,
      List.map_append]
    rfl

end Linked

theorem after_linked (current : Value) (limit : Int) {past : List ContextEvent}
    (h : IsHistory Allowed past) :
    ContextHeap.respond.after (.start current limit) past =
        (respond.after (start current limit) past).linked ∧
      ContextHeap.respond.answers (.start current limit) past =
        respond.answers (start current limit) past := by
  have hstart : ContextHeap.start current limit = (start current limit).linked := rfl
  rw [hstart]
  refine Machine.run_view fun before e hbefore => respond_linked ?_
  rw [length_contexts_after]
  exact h before e hbefore

/-- What holds of a family at a moment, after the events so far with their answers. -/
structure IsSound (limit : Int) (past : List ContextEvent) (answers : List ContextAnswer)
    (f : ContextFamily) : Prop where
  depth_eq : f.depth = ⟨limit, answers.count (.entered true) - past.countP isLeave⟩
  depth_le : f.depth.current ≤ max limit 0
  enter_refused : ∀ member, limit ≤ f.depth.current →
    respond f (.enter member) = (.entered false, f)
  enter_accepted : ∀ member, f.depth.current < limit →
    (respond f (.enter member)).1 = .entered true
  scopes_eq : ∀ member, f.scopes? member = ownScopes past member
  pop_refused : ∀ member, f.scopes? member = some [] → respond f (.pop member) = (.noScope, f)
  lookup_eq_some : ∀ c ∈ f.contexts, ∀ name v, c.lookup? name = some v ↔
    ∃ inner scope outer, c.scopes = inner ++ scope :: outer ∧
      (∀ s ∈ inner, name ∉ NameMap.names s) ∧ NameMap.get? scope name = some v
  lookup_eq_none : ∀ c ∈ f.contexts, ∀ name, c.lookup? name = none ↔
    ∀ scope ∈ c.scopes, name ∉ NameMap.names scope

/-- At every moment of a history, inside of its scopes too, the family is sound. It answers as the
contexts do that are linked to their counters, and these all report the depth of the family. -/
theorem isSound_after (current : Value) (limit : Int) {actions : List ContextAction}
    {past : List ContextEvent} (hactions : IsHistory Allowed (ContextAction.eventsOf actions))
    (hpast : past <+: ContextAction.eventsOf actions) :
    IsSound limit past (respond.answers (start current limit) past)
      (respond.after (start current limit) past) ∧
    ContextHeap.respond.answers (.start current limit) past =
      respond.answers (start current limit) past ∧
    ContextHeap.respond.after (.start current limit) past =
      (respond.after (start current limit) past).linked ∧
    ∀ member < (respond.after (start current limit) past).contexts.length,
      (ContextHeap.respond.after (.start current limit) past).depth? member =
        some (respond.after (start current limit) past).depth := by
  have h := hactions.earlier hpast
  obtain ⟨hlinked, hanswers⟩ := after_linked current limit h
  have hlimit : (respond.after (start current limit) past).depth.limit = limit := by
    rw [depth_after]
  refine ⟨?_, hanswers, hlinked, ?_⟩
  · refine ⟨depth_after, depth_le_after, ?_, ?_, scopes?_after h, ?_, ?_, ?_⟩
    · intro member hdepth
      rw [respond_enter, hlimit, if_pos hdepth]
    · intro member hdepth
      rw [respond_enter, hlimit, if_neg (Int.not_le.mpr hdepth)]
    · intro member hscopes
      exact respond_pop_of_nil hscopes
    · intro c hc name v
      exact Context.lookup?_eq_some_iff
    · intro c hc name
      exact Context.lookup?_eq_none_iff_not_mem
  · intro member hmember
    rw [hlinked, depth?_linked hmember]

/-- In the scope of a child, the limit that its parent has reached is reached for the child too. -/
theorem isSound_after_child :
    IsHistory Allowed (ContextAction.eventsOf [.single (.enter 0), .single (.child 0 .absent []),
      .scope 1 [("x", .absent)] [.single (.enter 1), .single (.pop 0)]]) ∧
    [.enter 0, .child 0 .absent [], .push 1 [("x", .absent)], .enter 1] <+:
      ContextAction.eventsOf [.single (.enter 0), .single (.child 0 .absent []),
        .scope 1 [("x", .absent)] [.single (.enter 1), .single (.pop 0)]] ∧
    IsSound 1 [.enter 0, .child 0 .absent [], .push 1 [("x", .absent)], .enter 1]
      [.entered true, .done, .done, .entered false]
      (respond.after (start .absent 1)
        [.enter 0, .child 0 .absent [], .push 1 [("x", .absent)], .enter 1]) ∧
    (ContextHeap.respond.after (.start .absent 1)
      [.enter 0, .child 0 .absent [], .push 1 [("x", .absent)], .enter 1]).depth? 1 =
        some ⟨1, 1⟩ := by
  have hactions : IsHistory Allowed (ContextAction.eventsOf [.single (.enter 0),
      .single (.child 0 .absent []),
      .scope 1 [("x", .absent)] [.single (.enter 1), .single (.pop 0)]]) := by
    show IsHistory Allowed ([] ++ [ContextEvent.enter 0] ++ [ContextEvent.child 0 .absent []] ++
      [ContextEvent.push 1 [("x", .absent)]] ++ [ContextEvent.enter 1] ++ [ContextEvent.pop 0] ++
      [ContextEvent.pop 1])
    simp only [isHistory_concat, isHistory_nil, Allowed, true_and]
    decide
  have hpast : [.enter 0, .child 0 .absent [], .push 1 [("x", .absent)], .enter 1] <+:
      ContextAction.eventsOf [.single (.enter 0), .single (.child 0 .absent []),
        .scope 1 [("x", .absent)] [.single (.enter 1), .single (.pop 0)]] :=
    ⟨[.pop 0, .pop 1], rfl⟩
  obtain ⟨hsound, -, -, hdepth⟩ := isSound_after .absent 1 hactions hpast
  exact ⟨hactions, hpast, hsound, hdepth 1 (by decide)⟩

end ContextFamily

end TextTemplate
