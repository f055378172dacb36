import TextTemplate.Proofs.Decimal
import TextTemplate.Proofs.Preorder
import TextTemplate.Proofs.Rendering

/-! What holds of the single texts and of whatever stops a node, and is kept when one meaning is
put behind another, holds of a whole rendering. -/

namespace TextTemplate

namespace Interruption

def exceedsDepth : Interruption → Bool
  | .error ⟨.depthExceeded _, _, _⟩ | .limit _ => true
  | _ => false

variable {limit : Int} (position : Position) (name : String)

@[simp] theorem exceedsDepth_tooDeep (limit : Int) :
    (tooDeep limit position name).exceedsDepth = true := by
  unfold tooDeep
  split <;> rfl

theorem tooDeep_of_isLong (h : IsLong limit) :
    tooDeep limit position name = .limit .tooLongToWrite := by
  rw [tooDeep, writeInteger_of_isLong h]

theorem tooDeep_of_not_isLong (h : ¬ IsLong limit) :
    tooDeep limit position name = .error ⟨.depthExceeded limit, position, name⟩ := by
  rw [tooDeep, writeInteger_of_not_isLong h]

theorem eq_of_error_eq_tooDeep {position : Position} {name : String} {e : RenderError}
    (h : error e = tooDeep limit position name) : e = ⟨.depthExceeded limit, position, name⟩ := by
  unfold tooDeep at h
  split at h
  · exact error.inj h
  · cases h

end Interruption

namespace Answer

variable {α β : Type}

/-- Whatever may stop the answer, it is not a want of levels. -/
def WithinDepth (answer : Answer α) : Prop :=
  ∀ interruption, answer = .error interruption → interruption.exceedsDepth = false

theorem withinDepth_ok (a : α) : WithinDepth (.ok a) := by
  intro interruption h
  cases h

theorem withinDepth_error {interruption : Interruption} (h : interruption.exceedsDepth = false) :
    WithinDepth (α := α) (.error interruption) := by
  intro interruption' heq
  cases heq
  exact h

theorem WithinDepth.bind {answer : Answer α} {f : α → Answer β} (h : WithinDepth answer)
    (hf : ∀ a, WithinDepth (f a)) : WithinDepth (answer >>= f) := by
  cases answer with
  | ok a => exact hf a
  | error interruption => exact withinDepth_error (h interruption rfl)

theorem WithinDepth.map {answer : Answer α} (h : WithinDepth answer) (f : α → β) :
    WithinDepth (answer.map f) := by
  cases answer with
  | ok a => exact withinDepth_ok (f a)
  | error interruption => exact withinDepth_error (h interruption rfl)

theorem withinDepth_mapM {f : α → Answer β} (h : ∀ a, WithinDepth (f a)) (as : List α) :
    WithinDepth (as.mapM f) := by
  induction as with
  | nil => exact withinDepth_ok []
  | cons a as ih =>
    rw [List.mapM_cons]
    exact (h a).bind fun b => ih.bind fun bs => withinDepth_ok (b :: bs)

end Answer

namespace Environment

open Answer

theorem withinDepth_find (ρ : Environment) (name : String) (position : Position) (path : Path) :
    WithinDepth (ρ.find name position path) := by
  unfold find
  split
  · exact withinDepth_ok _
  · exact withinDepth_error rfl
  · exact withinDepth_error rfl

theorem withinDepth_findCondition (ρ : Environment) (setup : Setup) (name : String)
    (position : Position) (path : Path) :
    WithinDepth (ρ.findCondition setup name position path) := by
  unfold findCondition
  split
  · exact withinDepth_ok _
  · exact ρ.withinDepth_find name position path

theorem withinDepth_findBranch (ρ : Environment) (setup : Setup) (name : String)
    (position : Position) (path : Path) (body : List Node) (otherwise : Option (List Node)) :
    WithinDepth (ρ.findBranch setup name position path body otherwise) := by
  fun_induction findBranch ρ setup name position path body otherwise with
  | case1 position path body otherwise ih =>
    refine (ρ.withinDepth_findCondition setup name position path).bind fun v => ?_
    split
    · exact withinDepth_ok body
    · split
      · exact ih
      · exact withinDepth_ok _

theorem withinDepth_findItems (ρ : Environment) (name : String) (position : Position)
    (source : Path) : WithinDepth (ρ.findItems name position source) := by
  refine (ρ.withinDepth_find name position source).bind fun v => ?_
  split
  · exact withinDepth_ok _
  · exact withinDepth_error rfl

theorem withinDepth_format (ρ : Environment) (setup : Setup) (name : String)
    (position : Position) (path : Path) (formatter : Option FormatterCall) :
    WithinDepth (ρ.format setup name position path formatter) := by
  refine (ρ.withinDepth_find name position path).bind fun v => ?_
  dsimp only
  split
  · exact withinDepth_error rfl
  · split
    · exact withinDepth_error rfl
    · split
      · exact withinDepth_ok _
      all_goals exact withinDepth_error rfl

theorem withinDepth_findTemplate (setup : Setup) (name : String) (position : Position)
    (template : String) : WithinDepth (findTemplate setup name position template) := by
  unfold findTemplate
  split
  · exact withinDepth_ok _
  · exact withinDepth_error rfl

theorem withinDepth_callee (ρ : Environment) (name : String) (position : Position)
    (root : Option Path) (arguments : List (String × Path)) :
    WithinDepth (ρ.callee name position root arguments) := by
  have hroot : WithinDepth (ρ.findRoot name position root) := by
    cases root with
    | none => exact withinDepth_ok ρ.current
    | some path => exact ρ.withinDepth_find name position path
  have harguments : WithinDepth (ρ.findAll name position arguments) := by
    refine withinDepth_mapM ?_ arguments
    intro argument
    exact (ρ.withinDepth_find name position argument.2).map _
  exact hroot.bind fun current => harguments.bind fun bindings => withinDepth_ok _

end Environment

def Node.isLeaf : Node → Bool
  | .text .. | .comment .. | .value .. => true
  | _ => false

/-- The template that a name stands for in a call. -/
def Setup.template? (setup : Setup) (name : String) : Option Template :=
  setup.library.bind (·.get? name)

theorem Environment.findTemplate_eq_ok_iff {setup : Setup} {name template : String}
    {position : Position} {t : Template} :
    findTemplate setup name position template = .ok t ↔ setup.template? template = some t := by
  unfold findTemplate Setup.template?
  cases setup.library.bind (·.get? template) <;> simp

/-- A property of meanings that rendering keeps on the nodes that are good for a number of levels.
What stops a node is a failed look-up, or a want of levels where none is left. -/
structure Meaning.Kept (setup : Setup) (limit : Int) (Good : Nat → Node → Prop)
    (R : Meaning → Prop) : Prop where
  nothing : R (saying "")
  append {m n : Meaning} : R m → R n → R (m.append n)
  stops {interruption : Interruption} : interruption.exceedsDepth = false → R (Meaning.stops interruption)
  exceeded {block : Node} {name : String} : Good 0 block → block.isLeaf = false →
    R (Meaning.stops (.tooDeep limit block.position name))
  text {levels : Nat} {position : Position} {text : String} :
    Good levels (.text position text) → R (saying text)
  value {levels : Nat} {ρ : Environment} {name : String} {position : Position} {path : Path}
    {formatter : Option FormatterCall} {text : String} :
    Good levels (.value position path formatter) →
      ρ.format setup name position path formatter = .ok text → R (saying text)
  renders {levels : Nat} {block : Node} {nodes : List Node} :
    Good (levels + 1) block → block.Renders nodes → ∀ n ∈ nodes, Good levels n
  calls {levels : Nat} {position : Position} {template : String} {root : Option Path}
    {arguments : List (String × Path)} {t : Template} :
    Good (levels + 1) (.call position template root arguments) →
      setup.template? template = some t → ∀ n ∈ t.nodes, Good levels n

namespace Meaning.Kept

variable {setup : Setup} {limit : Int} {Good : Nat → Node → Prop} {R : Meaning → Prop}

theorem concat (h : Kept setup limit Good R) {ms : List Meaning} (hms : ∀ m ∈ ms, R m) :
    R (concat ms) := by
  induction ms with
  | nil => exact h.nothing
  | cons m ms ih =>
    have hrest := ih fun m' hm' => hms m' (List.mem_cons_of_mem m hm')
    exact h.append (hms m List.mem_cons_self) hrest

theorem given (h : Kept setup limit Good R) {α : Type} {answer : Answer α} {m : α → Meaning}
    (hanswer : Answer.WithinDepth answer) (hm : ∀ a, answer = .ok a → R (m a)) :
    R (given answer m) := by
  cases answer with
  | ok a => exact hm a rfl
  | error interruption => exact h.stops (hanswer interruption rfl)

theorem nodes (h : Kept setup limit Good R) {levels : Nat}
    (hnode : ∀ name ρ n, Good levels n → R (nodeMeaning setup limit levels name ρ n))
    (name : String) (ρ : Environment) {nodes : List Node} (hnodes : ∀ n ∈ nodes, Good levels n) :
    R (Meaning.concat (nodes.map (nodeMeaning setup limit levels name ρ))) := by
  refine h.concat ?_
  intro m hm
  obtain ⟨n, hn, rfl⟩ := List.mem_map.mp hm
  exact hnode name ρ n (hnodes n hn)

theorem node (h : Kept setup limit Good R) (levels : Nat) (name : String) (ρ : Environment)
    (n : Node) (hn : Good levels n) : R (nodeMeaning setup limit levels name ρ n) := by
  -- What a block or a call renders is rendered with one level less.
  induction levels generalizing name ρ n with
  | zero =>
    cases n with
    | text position text => exact h.text hn
    | comment position text => exact h.nothing
    | value position path formatter =>
      have hformat := ρ.withinDepth_format setup name position path formatter
      exact h.given hformat fun text htext => h.value hn htext
    | ifBlock | forBlock | withBlock | call => exact h.exceeded hn rfl
  | succ levels ih =>
    cases n with
    | text position text => exact h.text hn
    | comment position text => exact h.nothing
    | value position path formatter =>
      have hformat := ρ.withinDepth_format setup name position path formatter
      exact h.given hformat fun text htext => h.value hn htext
    | ifBlock position path body otherwise =>
      refine h.given (ρ.withinDepth_findBranch setup name position path body otherwise) fun nodes hnodes => ?_
      have hbranch := Environment.alternative_of_findBranch hnodes
      exact h.nodes ih name ρ (h.renders hn (.ifBlock hbranch))
    | forBlock position item index source body =>
      refine h.given (ρ.withinDepth_findItems name position source) fun items _ => h.concat ?_
      intro m hm
      obtain ⟨⟨v, i⟩, -, rfl⟩ := List.mem_map.mp hm
      exact h.nodes ih name (ρ.turn item index v i) (h.renders hn .forBlock)
    | withBlock position bound source body =>
      refine h.given (ρ.withinDepth_find name position source) fun v _ => ?_
      exact h.nodes ih name (ρ.bind bound v) (h.renders hn .withBlock)
    | call position template root arguments =>
      refine h.given (Environment.withinDepth_findTemplate setup name position template) fun t ht => ?_
      refine h.given (ρ.withinDepth_callee name position root arguments) fun ρ' _ => ?_
      have hcalled := Environment.findTemplate_eq_ok_iff.mp ht
      exact h.nodes ih t.name ρ' (h.calls hn hcalled)

theorem template (h : Kept setup limit Good R) (t : Template) (root : Value)
    (ht : ∀ n ∈ t.nodes, Good limit.toNat n) : R (t.meaning setup limit root) :=
  h.nodes (h.node limit.toNat) t.name (.root root) ht

end Meaning.Kept

end TextTemplate
