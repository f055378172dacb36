import Mathlib.Data.List.Forall2
import TextTemplate.Proofs.Invariant

/-! Two renderings whose values, places and template names correspond. What one of them does to its
values the other does to the corresponding ones, so they say the same and stop alike. -/

namespace TextTemplate

/-- Which values, places and names of templates correspond, and which formatters the nodes may
use: `none` stands for the default one. -/
structure Correspondence where
  value : Value → Value → Prop
  place : Position → Position → Prop
  title : String → String → Prop
  format : Option FormatterCall → Prop

namespace Correspondence

variable (C : Correspondence)

inductive Interruptions : Interruption → Interruption → Prop
  | error {fault : RenderFault} {p p' : Position} {name name' : String} : C.place p p' →
      C.title name name' → Interruptions (.error ⟨fault, p, name⟩) (.error ⟨fault, p', name'⟩)
  | integer (fault : IntegerFault) : Interruptions (.integer fault) (.integer fault)
  | crash (reason : String) : Interruptions (.crash reason) (.crash reason)
  | limit (fault : IntegerFault) : Interruptions (.limit fault) (.limit fault)

inductive Answers {α β : Type} (R : α → β → Prop) : Answer α → Answer β → Prop
  | ok {a : α} {b : β} : R a b → Answers R (.ok a) (.ok b)
  | error {i i' : Interruption} : C.Interruptions i i' → Answers R (.error i) (.error i')

/-- What a path leads to. Faults of a path name its segments, so they are the same. -/
inductive Resolved : Resolving Value → Resolving Value → Prop
  | ok {v v' : Value} : C.value v v' → Resolved (.ok v) (.ok v')
  | error (e : ResolveError) : Resolved (.error e) (.error e)

inductive Meanings : Meaning → Meaning → Prop
  | done (text : String) : Meanings ⟨text, none⟩ ⟨text, none⟩
  | stopped (text : String) {i i' : Interruption} : C.Interruptions i i' →
      Meanings ⟨text, some i⟩ ⟨text, some i'⟩

structure Environments (ρ ρ' : Environment) : Prop where
  current : C.value ρ.current ρ'.current
  bound (name : String) : Option.Rel C.value (ρ.bound name) (ρ'.bound name)

inductive Nodes : Node → Node → Prop
  | text {p p' : Position} (text : String) : C.place p p' → Nodes (.text p text) (.text p' text)
  | comment {p p' : Position} (text : String) : C.place p p' →
      Nodes (.comment p text) (.comment p' text)
  | value {p p' : Position} (path : Path) {formatter : Option FormatterCall} : C.place p p' →
      C.format formatter → Nodes (.value p path formatter) (.value p' path formatter)
  | ifBlock {p p' : Position} (condition : Path) {body body' : List Node}
      {otherwise otherwise' : Option (List Node)} : C.place p p' →
      List.Forall₂ Nodes body body' → Option.Rel (List.Forall₂ Nodes) otherwise otherwise' →
      Nodes (.ifBlock p condition body otherwise) (.ifBlock p' condition body' otherwise')
  | forBlock {p p' : Position} (item : String) (index : Option String) (source : Path)
      {body body' : List Node} : C.place p p' → List.Forall₂ Nodes body body' →
      Nodes (.forBlock p item index source body) (.forBlock p' item index source body')
  | withBlock {p p' : Position} (name : String) (source : Path) {body body' : List Node} :
      C.place p p' → List.Forall₂ Nodes body body' →
      Nodes (.withBlock p name source body) (.withBlock p' name source body')
  | call {p p' : Position} (template : String) (root : Option Path)
      (arguments : List (String × Path)) : C.place p p' →
      Nodes (.call p template root arguments) (.call p' template root arguments)

/-- The operations of a rendering do not tell corresponding values apart, and the templates that it
may call correspond to themselves. -/
structure Respected (setup : Setup) : Prop where
  absent : C.value .absent .absent
  integer (n : Int) : C.value (.integer n) (.integer n)
  kind {v v' : Value} : C.value v v' → v.kind = v'.kind
  truthy {v v' : Value} : C.value v v' → v.isTruthy = v'.isTruthy
  items {xs xs' : List Value} : C.value (.sequence xs) (.sequence xs') →
    List.Forall₂ C.value xs xs'
  step {v v' : Value} (segment resolved : String) : C.value v v' →
    C.Resolved (v.step segment resolved) (v'.step segment resolved)
  run {v v' : Value} {formatter : Option FormatterCall} {f : Formatter} : C.format formatter →
    setup.formatters.get? (formatter.getD ⟨setup.defaultFormatter, []⟩).name = some f →
    C.value v v' → f.run v (formatter.getD ⟨setup.defaultFormatter, []⟩).arguments =
      f.run v' (formatter.getD ⟨setup.defaultFormatter, []⟩).arguments
  called {name : String} {t : Template} : setup.template? name = some t →
    C.title t.name t.name ∧ List.Forall₂ C.Nodes t.nodes t.nodes

variable {C} {setup : Setup} {α β γ δ : Type} {ρ ρ' : Environment} {name name' : String}
  {p p' : Position}

theorem Answers.bind {R : α → β → Prop} {S : γ → δ → Prop} {x : Answer α} {y : Answer β}
    {f : α → Answer γ} {g : β → Answer δ} (h : C.Answers R x y)
    (hfg : ∀ a b, R a b → C.Answers S (f a) (g b)) : C.Answers S (x >>= f) (y >>= g) := by
  cases h with
  | ok hab => exact hfg _ _ hab
  | error hi => exact .error hi

theorem Answers.mapM {R : γ → δ → Prop} {f : α → Answer γ} {g : α → Answer δ}
    (h : ∀ a, C.Answers R (f a) (g a)) (as : List α) :
    C.Answers (List.Forall₂ R) (as.mapM f) (as.mapM g) := by
  induction as with
  | nil => exact .ok .nil
  | cons a as ih =>
    rw [List.mapM_cons, List.mapM_cons]
    refine (h a).bind fun c d hcd => ih.bind fun cs ds hcds => ?_
    exact .ok (.cons hcd hcds)

theorem interruptions_tooDeep (limit : Int) (hp : C.place p p') (hname : C.title name name') :
    C.Interruptions (.tooDeep limit p name) (.tooDeep limit p' name') := by
  rw [Interruption.tooDeep, Interruption.tooDeep]
  split
  · exact .error hp hname
  · exact .limit _

theorem meanings_stops {i i' : Interruption} (h : C.Interruptions i i') :
    C.Meanings (.stops i) (.stops i') :=
  .stopped "" h

theorem Answers.given {R : α → β → Prop} {x : Answer α} {y : Answer β} {f : α → Meaning}
    {g : β → Meaning} (h : C.Answers R x y) (hfg : ∀ a b, R a b → C.Meanings (f a) (g b)) :
    C.Meanings (.given x f) (.given y g) := by
  cases h with
  | ok hab => exact hfg _ _ hab
  | error hi => exact meanings_stops hi

theorem Meanings.append {m m' n n' : Meaning} (hm : C.Meanings m m') (hn : C.Meanings n n') :
    C.Meanings (m.append n) (m'.append n') := by
  cases hm with
  | done text =>
    cases hn with
    | done text' => exact .done _
    | stopped text' hi => exact .stopped _ hi
  | stopped text hi => exact .stopped text hi

theorem meanings_concat {ms ms' : List Meaning} (h : List.Forall₂ C.Meanings ms ms') :
    C.Meanings (.concat ms) (.concat ms') := by
  induction h with
  | nil => exact .done ""
  | cons hm _ ih => exact hm.append ih

theorem Environments.bind (h : C.Environments ρ ρ') (name : String) {v v' : Value}
    (hv : C.value v v') : C.Environments (ρ.bind name v) (ρ'.bind name v') := by
  refine ⟨h.current, fun key => ?_⟩
  simp only [Environment.bind]
  split
  · exact .some hv
  · exact h.bound key

theorem Environments.bindAll (h : C.Environments ρ ρ')
    {bindings bindings' : List (String × Value)}
    (hbindings : List.Forall₂ (fun b b' => b.1 = b'.1 ∧ C.value b.2 b'.2) bindings bindings') :
    C.Environments (ρ.bindAll bindings) (ρ'.bindAll bindings') := by
  induction hbindings generalizing ρ ρ' with
  | nil => exact h
  | @cons b b' _ _ hb _ ih =>
    obtain ⟨name, v⟩ := b
    obtain ⟨name', v'⟩ := b'
    obtain ⟨rfl, hv⟩ := hb
    exact ih (h.bind name hv)

theorem environments_root {v v' : Value} (h : C.value v v') :
    C.Environments (.root v) (.root v') :=
  ⟨h, fun _ => .none⟩

theorem Environments.turn (hC : C.Respected setup) (h : C.Environments ρ ρ') (item : String)
    (index : Option String) {v v' : Value} (hv : C.value v v') (n : Nat) :
    C.Environments (ρ.turn item index v n) (ρ'.turn item index v' n) := by
  cases index with
  | none => exact h.bind item hv
  | some key =>
    simp only [Environment.turn]
    split
    · exact h.bind item hv
    · exact (h.bind item hv).bind key (hC.integer n)

theorem resolved_steps (hC : C.Respected setup) {v v' : Value} (hv : C.value v v')
    (resolved : String) (segments : List String) :
    C.Resolved (v.steps resolved segments) (v'.steps resolved segments) := by
  induction segments generalizing v v' resolved with
  | nil => exact .ok hv
  | cons segment segments ih =>
    rw [Value.steps, Value.steps]
    have hstep := hC.step segment resolved hv
    generalize v.step segment resolved = x at hstep ⊢
    generalize v'.step segment resolved = y at hstep ⊢
    cases hstep with
    | ok hnext => exact ih hnext _
    | error e => exact .error e

theorem resolved_resolve (hC : C.Respected setup) (h : C.Environments ρ ρ') (path : Path) :
    C.Resolved (ρ.resolve path) (ρ'.resolve path) := by
  rw [Environment.resolve, Environment.resolve]
  cases path.rootName? with
  | none => exact resolved_steps hC h.current _ _
  | some root =>
    simp only [Option.bind_some]
    have hbound := h.bound root
    generalize ρ.bound root = x at hbound ⊢
    generalize ρ'.bound root = y at hbound ⊢
    cases hbound with
    | none => exact resolved_steps hC h.current _ _
    | some hv => exact resolved_steps hC hv _ _

theorem answers_find (hC : C.Respected setup) (h : C.Environments ρ ρ')
    (hname : C.title name name') (hp : C.place p p') (path : Path) :
    C.Answers C.value (ρ.find name p path) (ρ'.find name' p' path) := by
  rw [Environment.find, Environment.find]
  have hresolved := resolved_resolve hC h path
  generalize ρ.resolve path = x at hresolved ⊢
  generalize ρ'.resolve path = y at hresolved ⊢
  cases hresolved with
  | ok hv => exact .ok hv
  | error e =>
    cases e with
    | path fault => exact .error (.error hp hname)
    | integer fault => exact .error (.integer fault)

theorem answers_findCondition (hC : C.Respected setup) (h : C.Environments ρ ρ')
    (hname : C.title name name') (hp : C.place p p') (path : Path) :
    C.Answers C.value (ρ.findCondition setup name p path)
      (ρ'.findCondition setup name' p' path) := by
  have hfind := answers_find hC h hname hp path
  have hresolved := resolved_resolve hC h path
  rw [Environment.findCondition, Environment.findCondition]
  generalize ρ.resolve path = x at hresolved ⊢
  generalize ρ'.resolve path = y at hresolved ⊢
  cases hresolved with
  | ok hv => cases setup.strictConditions <;> exact hfind
  | error e =>
    cases setup.strictConditions with
    | true => exact hfind
    | false =>
      cases e with
      | path fault => exact .ok hC.absent
      | integer fault => exact hfind

theorem answers_findItems (hC : C.Respected setup) (h : C.Environments ρ ρ')
    (hname : C.title name name') (hp : C.place p p') (source : Path) :
    C.Answers (List.Forall₂ C.value) (ρ.findItems name p source)
      (ρ'.findItems name' p' source) := by
  refine (answers_find hC h hname hp source).bind fun v v' hv => ?_
  have hkind := hC.kind hv
  cases v <;> cases v' <;> simp only [Value.kind, reduceCtorEq] at hkind
  · exact .error (.error hp hname)
  · exact .ok (hC.items hv)
  · exact .error (.error hp hname)
  · exact .error (.error hp hname)

theorem answers_findRoot (hC : C.Respected setup) (h : C.Environments ρ ρ')
    (hname : C.title name name') (hp : C.place p p') (root : Option Path) :
    C.Answers C.value (ρ.findRoot name p root) (ρ'.findRoot name' p' root) := by
  cases root with
  | none => exact .ok h.current
  | some path => exact answers_find hC h hname hp path

theorem answers_findAll (hC : C.Respected setup) (h : C.Environments ρ ρ')
    (hname : C.title name name') (hp : C.place p p') (arguments : List (String × Path)) :
    C.Answers (List.Forall₂ fun b b' => b.1 = b'.1 ∧ C.value b.2 b'.2)
      (ρ.findAll name p arguments) (ρ'.findAll name' p' arguments) := by
  refine Answers.mapM (fun argument => ?_) arguments
  have hfind := answers_find hC h hname hp argument.2
  generalize ρ.find name p argument.2 = x at hfind ⊢
  generalize ρ'.find name' p' argument.2 = y at hfind ⊢
  cases hfind with
  | ok hv => exact .ok ⟨rfl, hv⟩
  | error hi => exact .error hi

theorem answers_callee (hC : C.Respected setup) (h : C.Environments ρ ρ')
    (hname : C.title name name') (hp : C.place p p') (root : Option Path)
    (arguments : List (String × Path)) :
    C.Answers C.Environments (ρ.callee name p root arguments)
      (ρ'.callee name' p' root arguments) := by
  refine (answers_findRoot hC h hname hp root).bind fun v v' hv => ?_
  refine (answers_findAll hC h hname hp arguments).bind fun bindings bindings' hbindings => ?_
  exact .ok ((environments_root hv).bindAll hbindings)

theorem answers_findTemplate (hname : C.title name name') (hp : C.place p p')
    (template : String) :
    C.Answers (fun t t' => t = t' ∧ setup.template? template = some t)
      (Environment.findTemplate setup name p template)
      (Environment.findTemplate setup name' p' template) := by
  unfold Environment.findTemplate
  cases htemplate : setup.library.bind (·.get? template) with
  | none => exact .error (.error hp hname)
  | some t => exact .ok ⟨rfl, htemplate⟩

theorem answers_format (hC : C.Respected setup) (h : C.Environments ρ ρ')
    (hname : C.title name name') (hp : C.place p p') (path : Path)
    {formatter : Option FormatterCall} (hformatter : C.format formatter) :
    C.Answers Eq (ρ.format setup name p path formatter)
      (ρ'.format setup name' p' path formatter) := by
  refine (answers_find hC h hname hp path).bind fun v v' hv => ?_
  dsimp only
  cases hget : setup.formatters.get? (formatter.getD ⟨setup.defaultFormatter, []⟩).name with
  | none => exact .error (.error hp hname)
  | some f =>
    dsimp only
    split
    · exact .error (.error hp hname)
    · rw [hC.run hformatter hget hv]
      split
      · exact .ok rfl
      · exact .error (.error hp hname)
      · exact .error (.error hp hname)
      · exact .error (.integer _)
      · exact .error (.crash _)

theorem answers_findBranch (hC : C.Respected setup) (h : C.Environments ρ ρ')
    (hname : C.title name name') (hp : C.place p p') (path : Path) {body body' : List Node}
    {otherwise otherwise' : Option (List Node)} (hbody : List.Forall₂ C.Nodes body body')
    (hotherwise : Option.Rel (List.Forall₂ C.Nodes) otherwise otherwise') :
    C.Answers (List.Forall₂ C.Nodes) (ρ.findBranch setup name p path body otherwise)
      (ρ'.findBranch setup name' p' path body' otherwise') := by
  fun_induction Environment.findBranch ρ setup name p path body otherwise
    generalizing p' body' otherwise' with
  | case1 p path body otherwise ih =>
    rw [Environment.findBranch.eq_def ρ']
    refine (answers_findCondition hC h hname hp path).bind fun v v' hv => ?_
    rw [hC.truthy hv]
    by_cases htruthy : v'.isTruthy = true
    · rw [if_pos htruthy, if_pos htruthy]
      exact .ok hbody
    · rw [if_neg htruthy, if_neg htruthy]
      -- Only a list of exactly one if-block goes on with a further condition.
      cases hotherwise with
      | none => exact .ok .nil
      | some hnodes =>
        cases hnodes with
        | nil => exact .ok .nil
        | cons hn hrest =>
          have hlist := List.Forall₂.cons hn hrest
          cases hrest with
          | cons => cases hn <;> exact .ok hlist
          | nil =>
            cases hn with
            | ifBlock condition hp' hbody' hotherwise' => exact ih hp' hbody' hotherwise'
            | text | comment | value | forBlock | withBlock | call => exact .ok hlist

theorem forall₂_zipIdx {R : α → β → Prop} {as : List α} {bs : List β} (h : List.Forall₂ R as bs)
    (k : Nat) : List.Forall₂ (fun a b => R a.1 b.1 ∧ a.2 = b.2) (as.zipIdx k) (bs.zipIdx k) := by
  induction h generalizing k with
  | nil => exact .nil
  | cons hab _ ih =>
    rw [List.zipIdx_cons, List.zipIdx_cons]
    exact .cons ⟨hab, rfl⟩ (ih (k + 1))

theorem meanings_map {R : α → β → Prop} {as : List α} {bs : List β} {f : α → Meaning}
    {g : β → Meaning} (h : List.Forall₂ R as bs) (hfg : ∀ a b, R a b → C.Meanings (f a) (g b)) :
    C.Meanings (.concat (as.map f)) (.concat (bs.map g)) := by
  refine meanings_concat ?_
  rw [List.forall₂_map_left_iff, List.forall₂_map_right_iff]
  exact h.imp hfg

/-- Nodes that correspond mean what corresponds. -/
theorem meanings_node (hC : C.Respected setup) (limit : Int) (levels : Nat) {n n' : Node}
    (hname : C.title name name') (h : C.Environments ρ ρ') (hn : C.Nodes n n') :
    C.Meanings (nodeMeaning setup limit levels name ρ n)
      (nodeMeaning setup limit levels name' ρ' n') := by
  -- A called template is rendered with one level less, so the induction is on the levels.
  induction levels generalizing name name' ρ ρ' n n' with
  | zero =>
    cases hn with
    | text text => exact .done text
    | comment text => exact .done ""
    | value path hp hformat =>
      exact (answers_format hC h hname hp path hformat).given fun a b hab => hab ▸ .done a
    | ifBlock _ hp | forBlock _ _ _ hp | withBlock _ _ hp | call _ _ _ hp =>
      exact meanings_stops (interruptions_tooDeep limit hp hname)
  | succ levels ih =>
    cases hn with
    | text text => exact .done text
    | comment text => exact .done ""
    | value path hp hformat =>
      exact (answers_format hC h hname hp path hformat).given fun a b hab => hab ▸ .done a
    | ifBlock condition hp hbody hotherwise =>
      refine (answers_findBranch hC h hname hp condition hbody hotherwise).given ?_
      intro nodes nodes' hnodes
      exact meanings_map hnodes fun m m' hm => ih hname h hm
    | forBlock item index source hp hbody =>
      refine (answers_findItems hC h hname hp source).given fun items items' hitems => ?_
      refine meanings_map (forall₂_zipIdx hitems 0) ?_
      rintro ⟨v, i⟩ ⟨v', _⟩ ⟨hv, rfl⟩
      exact meanings_map hbody fun m m' hm => ih hname (h.turn hC item index hv i) hm
    | withBlock bound source hp hbody =>
      refine (answers_find hC h hname hp source).given fun v v' hv => ?_
      exact meanings_map hbody fun m m' hm => ih hname (h.bind bound hv) hm
    | call template root arguments hp =>
      refine (answers_findTemplate hname hp template).given ?_
      rintro t _ ⟨rfl, htemplate⟩
      obtain ⟨htitle, hnodes⟩ := hC.called htemplate
      refine (answers_callee hC h hname hp root arguments).given fun ρ₁ ρ₁' hρ => ?_
      exact meanings_map hnodes fun m m' hm => ih htitle hρ hm

theorem meanings_template (hC : C.Respected setup) (limit : Int) {t t' : Template}
    {root root' : Value} (hname : C.title t.name t'.name)
    (hnodes : List.Forall₂ C.Nodes t.nodes t'.nodes) (hroot : C.value root root') :
    C.Meanings (t.meaning setup limit root) (t'.meaning setup limit root') :=
  meanings_map hnodes fun _ _ hn =>
    meanings_node hC limit limit.toNat hname (environments_root hroot) hn

mutual

/-- Trees that are the same correspond where places and formatters make no difference. -/
theorem nodes_of_same (hplace : ∀ p p', C.place p p') (hformat : ∀ f, C.format f) {n n' : Node}
    (h : n.same n' = true) : C.Nodes n n' := by
  match n with
  | .text p text =>
    cases n' <;> simp only [Node.same, Bool.false_eq_true, beq_iff_eq] at h
    exact h ▸ .text _ (hplace _ _)
  | .comment p text =>
    cases n' <;> simp only [Node.same, Bool.false_eq_true, beq_iff_eq] at h
    exact h ▸ .comment _ (hplace _ _)
  | .value p path formatter =>
    cases n' <;> simp only [Node.same, Bool.false_eq_true, Bool.and_eq_true, beq_iff_eq] at h
    obtain ⟨rfl, rfl⟩ := h
    exact .value _ (hplace _ _) (hformat _)
  | .ifBlock p condition body otherwise =>
    cases n' <;> simp only [Node.same, Bool.false_eq_true, Bool.and_eq_true, beq_iff_eq] at h
    obtain ⟨⟨rfl, hbody⟩, hotherwise⟩ := h
    exact .ifBlock _ (hplace _ _) (listNodes_of_same hplace hformat hbody)
      (optionNodes_of_same hplace hformat hotherwise)
  | .forBlock p item index source body =>
    cases n' <;> simp only [Node.same, Bool.false_eq_true, Bool.and_eq_true, beq_iff_eq] at h
    obtain ⟨⟨⟨rfl, rfl⟩, rfl⟩, hbody⟩ := h
    exact .forBlock _ _ _ (hplace _ _) (listNodes_of_same hplace hformat hbody)
  | .withBlock p name source body =>
    cases n' <;> simp only [Node.same, Bool.false_eq_true, Bool.and_eq_true, beq_iff_eq] at h
    obtain ⟨⟨rfl, rfl⟩, hbody⟩ := h
    exact .withBlock _ _ (hplace _ _) (listNodes_of_same hplace hformat hbody)
  | .call p template root arguments =>
    cases n' <;> simp only [Node.same, Bool.false_eq_true, Bool.and_eq_true, beq_iff_eq] at h
    obtain ⟨⟨rfl, rfl⟩, rfl⟩ := h
    exact .call _ _ _ (hplace _ _)

theorem listNodes_of_same (hplace : ∀ p p', C.place p p') (hformat : ∀ f, C.format f)
    {nodes nodes' : List Node} (h : Node.sameList nodes nodes' = true) :
    List.Forall₂ C.Nodes nodes nodes' := by
  match nodes, nodes' with
  | [], [] => exact .nil
  | n :: nodes, n' :: nodes' =>
    simp only [Node.sameList, Bool.and_eq_true] at h
    exact .cons (nodes_of_same hplace hformat h.1) (listNodes_of_same hplace hformat h.2)
  | [], _ :: _ => simp [Node.sameList] at h
  | _ :: _, [] => simp [Node.sameList] at h

theorem optionNodes_of_same (hplace : ∀ p p', C.place p p') (hformat : ∀ f, C.format f)
    {nodes nodes' : Option (List Node)} (h : Node.sameOption nodes nodes' = true) :
    Option.Rel (List.Forall₂ C.Nodes) nodes nodes' := by
  match nodes, nodes' with
  | none, none => exact .none
  | some nodes, some nodes' => exact .some (listNodes_of_same hplace hformat h)
  | none, some _ => simp [Node.sameOption] at h
  | some _, none => simp [Node.sameOption] at h

end

mutual

theorem nodes_refl (hplace : ∀ p, C.place p p) (n : Node)
    (h : ∀ p path formatter, .value p path formatter ∈ n.preorder → C.format formatter) :
    C.Nodes n n := by
  match n with
  | .text p text => exact .text text (hplace p)
  | .comment p text => exact .comment text (hplace p)
  | .value p path formatter =>
    exact .value path (hplace p) (h p path formatter (by simp [Node.preorder]))
  | .ifBlock p condition body otherwise =>
    refine .ifBlock condition (hplace p) (listNodes_refl hplace body ?_)
      (optionNodes_refl hplace otherwise ?_)
    · exact fun p path formatter hn => h p path formatter (by simp [Node.preorder, hn])
    · exact fun p path formatter hn => h p path formatter (by simp [Node.preorder, hn])
  | .forBlock p item index source body =>
    refine .forBlock item index source (hplace p) (listNodes_refl hplace body ?_)
    exact fun p path formatter hn => h p path formatter (by simp [Node.preorder, hn])
  | .withBlock p name source body =>
    refine .withBlock name source (hplace p) (listNodes_refl hplace body ?_)
    exact fun p path formatter hn => h p path formatter (by simp [Node.preorder, hn])
  | .call p template root arguments => exact .call template root arguments (hplace p)

theorem listNodes_refl (hplace : ∀ p, C.place p p) (nodes : List Node)
    (h : ∀ p path formatter, .value p path formatter ∈ Node.listPreorder nodes →
      C.format formatter) : List.Forall₂ C.Nodes nodes nodes := by
  match nodes with
  | [] => exact .nil
  | n :: nodes =>
    refine .cons (nodes_refl hplace n ?_) (listNodes_refl hplace nodes ?_)
    · exact fun p path formatter hn => h p path formatter (by simp [Node.listPreorder, hn])
    · exact fun p path formatter hn => h p path formatter (by simp [Node.listPreorder, hn])

theorem optionNodes_refl (hplace : ∀ p, C.place p p) (otherwise : Option (List Node))
    (h : ∀ p path formatter, .value p path formatter ∈ Node.optionPreorder otherwise →
      C.format formatter) : Option.Rel (List.Forall₂ C.Nodes) otherwise otherwise := by
  match otherwise with
  | none => exact .none
  | some nodes => exact .some (listNodes_refl hplace nodes h)

end

end Correspondence

end TextTemplate
