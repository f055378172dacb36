import Mathlib
import TextTemplate.Node.Assembly
import TextTemplate.Proofs.Invariant

/-! Chains of `else if`. Read plainly, an if-block whose condition does not hold renders its else
part like any other list of nodes, and a chained block in there takes a level of its own. Rendering
walks down the chain instead and takes one level for all of it. Wherever the plain reading has
levels enough, both come to the same. -/

namespace TextTemplate

namespace Meaning

/-- The text is cut short for want of levels. -/
def exceedsDepth (m : Meaning) : Bool :=
  m.interruption.any Interruption.exceedsDepth

/-- The second meaning is the first one, unless levels were wanting there. -/
def RefinedBy (m m' : Meaning) : Prop :=
  m.exceedsDepth = false → m' = m

section Refined

variable {α : Type} {m m' n n' : Meaning}

theorem RefinedBy.refl (m : Meaning) : m.RefinedBy m := fun _ => rfl

theorem RefinedBy.append (hm : m.RefinedBy m') (hn : n.RefinedBy n') :
    (m.append n).RefinedBy (m'.append n') := by
  intro h
  -- What stands behind an interruption has no part in the meaning and may want any levels.
  obtain ⟨text, interruption⟩ := m
  cases interruption with
  | some interruption =>
    obtain rfl := hm h
    rfl
  | none =>
    obtain rfl := hm rfl
    have hrest := hn h
    rw [hrest]

theorem refinedBy_concat {f g : α → Meaning} {as : List α}
    (h : ∀ a ∈ as, (f a).RefinedBy (g a)) :
    (concat (as.map f)).RefinedBy (concat (as.map g)) := by
  induction as with
  | nil => exact .refl _
  | cons a as ih =>
    obtain ⟨ha, has⟩ := List.forall_mem_cons.mp h
    exact ha.append (ih has)

theorem refinedBy_given {answer : Answer α} {f g : α → Meaning}
    (h : ∀ a, answer = .ok a → (f a).RefinedBy (g a)) :
    (given answer f).RefinedBy (given answer g) := by
  cases answer with
  | ok a => exact h a rfl
  | error interruption => exact .refl _

end Refined

end Meaning

namespace Environment

/-- The nodes that an if-block renders if its else part is taken as it stands. -/
def plainBranch (ρ : Environment) (setup : Setup) (name : String) (position : Position)
    (path : Path) (body : List Node) (otherwise : Option (List Node)) : Answer (List Node) := do
  let v ← ρ.findCondition setup name position path
  return if v.isTruthy then body else otherwise.getD []

end Environment

open Meaning Environment

/-- The meaning of a node if the if-blocks that `plain` picks out are read plainly, in the node
itself and in everything that it calls. -/
def plainMeaning (plain : Node → Bool) (setup : Setup) (limit : Int) :
    Nat → String → Environment → Node → Meaning
  | _, _, _, .text _ text => saying text
  | _, _, _, .comment _ _ => saying ""
  | _, name, ρ, .value position path formatter =>
    given (ρ.format setup name position path formatter) saying
  | 0, name, _, block => stops (.tooDeep limit block.position name)
  | levels + 1, name, ρ, .ifBlock position path body otherwise =>
    let branch :=
      if plain (.ifBlock position path body otherwise) then
        ρ.plainBranch setup name position path body otherwise
      else ρ.findBranch setup name position path body otherwise
    given branch fun nodes => concat (nodes.map (plainMeaning plain setup limit levels name ρ))
  | levels + 1, name, ρ, .forBlock position item index source body =>
    given (ρ.findItems name position source) fun items =>
      concat (items.zipIdx.map fun (v, n) =>
        concat (body.map (plainMeaning plain setup limit levels name (ρ.turn item index v n))))
  | levels + 1, name, ρ, .withBlock position bound source body =>
    given (ρ.find name position source) fun v =>
      concat (body.map (plainMeaning plain setup limit levels name (ρ.bind bound v)))
  | levels + 1, name, ρ, .call position template root arguments =>
    given (findTemplate setup name position template) fun t =>
      given (ρ.callee name position root arguments) fun ρ =>
        concat (t.nodes.map (plainMeaning plain setup limit levels t.name ρ))

theorem Meaning.kept_leaf (setup : Setup) (limit : Int) :
    Meaning.Kept setup limit (fun _ n => n.isLeaf = true) fun m => m.exceedsDepth = false where
  nothing := rfl
  append {m n} hm hn := by
    obtain ⟨text, stopped⟩ := m
    cases stopped with
    | none => exact hn
    | some _ => exact hm
  stops hstops := hstops
  exceeded hleaf hblock := by simp [hleaf] at hblock
  text _ := rfl
  value _ _ := rfl
  renders hleaf hrenders := by cases hrenders <;> cases hleaf
  calls hleaf _ := by cases hleaf

section Plain

variable {plain : Node → Bool} {setup : Setup} {limit : Int} {levels inner : Nat}

theorem refinedBy_nodes
    (h : ∀ name ρ n, (plainMeaning plain setup limit levels name ρ n).RefinedBy
      (nodeMeaning setup limit inner name ρ n)) (name : String) (ρ : Environment)
    (nodes : List Node) :
    (concat (nodes.map (plainMeaning plain setup limit levels name ρ))).RefinedBy
      (concat (nodes.map (nodeMeaning setup limit inner name ρ))) :=
  refinedBy_concat fun n _ => h name ρ n

/-- One step down a chain. The chained block is met as a node there and as a branch here, so here
it has the level more that it takes there. -/
theorem refinedBy_plainBranch
    (h : ∀ (inner : Nat) name ρ n, levels ≤ inner →
      (plainMeaning plain setup limit levels name ρ n).RefinedBy
        (nodeMeaning setup limit inner name ρ n))
    (hlevels : levels ≤ inner) (name : String) (ρ : Environment) (position : Position)
    (path : Path) (body : List Node) (otherwise : Option (List Node)) :
    (given (ρ.plainBranch setup name position path body otherwise) fun nodes =>
        concat (nodes.map (plainMeaning plain setup limit levels name ρ))).RefinedBy
      (given (ρ.findBranch setup name position path body otherwise) fun nodes =>
        concat (nodes.map (nodeMeaning setup limit inner name ρ))) := by
  have hnodes := refinedBy_nodes (fun name ρ n => h inner name ρ n hlevels) name ρ
  rw [plainBranch, findBranch.eq_def, RenderM.given_bind, RenderM.given_bind]
  refine refinedBy_given fun v _ => ?_
  by_cases hv : v.isTruthy = true
  · rw [if_pos hv, if_pos hv]
    exact hnodes body
  · rw [if_neg hv, if_neg hv]
    split
    · rename_i position path body otherwise
      have hchained := h (inner + 1) name ρ (.ifBlock position path body otherwise) (by omega)
      rw [nodeMeaning] at hchained
      show (concat [_]).RefinedBy _
      rw [concat_singleton]
      exact hchained
    · exact hnodes _

theorem plainMeaning_refinedBy (hlevels : levels ≤ inner) (name : String) (ρ : Environment)
    (n : Node) :
    (plainMeaning plain setup limit levels name ρ n).RefinedBy
      (nodeMeaning setup limit inner name ρ n) := by
  -- Whatever a block or a call renders has one level less on both sides.
  induction levels generalizing inner name ρ n with
  | zero =>
    cases n with
    | text | comment | value => cases inner <;> exact .refl _
    | ifBlock | forBlock | withBlock | call =>
      intro hdepth
      simp [plainMeaning, Meaning.exceedsDepth, stops] at hdepth
  | succ levels ih =>
    obtain ⟨inner, rfl⟩ := Nat.exists_eq_add_one_of_ne_zero (Nat.ne_zero_of_lt hlevels)
    have hinner : levels ≤ inner := Nat.le_of_succ_le_succ hlevels
    have hnodes (name : String) (ρ : Environment) (nodes : List Node) :=
      refinedBy_nodes (fun name ρ n => ih hinner name ρ n) name ρ nodes
    cases n with
    | text | comment | value => exact .refl _
    | ifBlock position path body otherwise =>
      rw [plainMeaning, nodeMeaning]
      by_cases hplain : plain (.ifBlock position path body otherwise) = true
      · rw [if_pos hplain]
        exact refinedBy_plainBranch (fun _ name ρ n h => ih h name ρ n) hinner name ρ position
          path body otherwise
      · rw [if_neg hplain]
        exact refinedBy_given fun nodes _ => hnodes name ρ nodes
    | forBlock position item index source body =>
      refine refinedBy_given fun items _ => refinedBy_concat fun turn _ => ?_
      exact hnodes name _ body
    | withBlock position bound source body =>
      exact refinedBy_given fun v _ => hnodes name (ρ.bind bound v) body
    | call position template root arguments =>
      exact refinedBy_given fun t _ => refinedBy_given fun ρ _ => hnodes t.name ρ t.nodes

end Plain

namespace Branch

/-- The branches of a chain in their order. -/
def chain (position : Position) (path : Path) (body : List Node) :
    Option (List Node) → List Branch
  | some [.ifBlock position' path' body' otherwise] =>
    ⟨position, path, body⟩ :: chain position' path' body' otherwise
  | _ => [⟨position, path, body⟩]

/-- What is rendered if no condition of the chain holds. -/
def remainder : Option (List Node) → List Node
  | some [.ifBlock _ _ _ otherwise] => remainder otherwise
  | otherwise => otherwise.getD []

theorem remainder_of_not_chained {otherwise : Option (List Node)}
    (h : ∀ position path body inner, otherwise ≠ some [.ifBlock position path body inner]) :
    remainder otherwise = otherwise.getD [] := by
  unfold remainder
  split
  · exact absurd rfl (h _ _ _ _)
  · rfl

/-- Finds out whether the condition of the branch holds. -/
def holds (setup : Setup) (name : String) (branch : Branch) : RenderM Bool := do
  return (← RenderM.condition setup name branch.position branch.condition).isTruthy

end Branch

namespace RenderM

theorem findM?_cons_bind {α β : Type} {p : α → RenderM Bool} {a : α} {as : List α}
    {f : Option α → RenderM β} :
    ((a :: as).findM? p >>= f) = p a >>= fun b => if b then f (some a) else as.findM? p >>= f := by
  rw [List.findM?, bind_assoc]
  congr 1
  funext b
  cases b <;> simp

/-- Selecting tries the conditions of the chain in their order, up to the first that holds. -/
theorem selectBranch_eq_findM? (setup : Setup) (name : String) (position : Position) (path : Path)
    (body : List Node) (otherwise : Option (List Node)) :
    selectBranch setup name position path body otherwise = do
      let first ← (Branch.chain position path body otherwise).findM? (Branch.holds setup name)
      return first.elim (Branch.remainder otherwise) Branch.body := by
  fun_induction Branch.chain position path body otherwise with
  | case1 position path body position' path' body' otherwise ih =>
    rw [selectBranch.eq_def, findM?_cons_bind, Branch.holds, bind_assoc]
    simp only [pure_bind, ih, Branch.remainder, Option.elim_some]
  | case2 position path body otherwise h =>
    rw [selectBranch.eq_def, findM?_cons_bind, Branch.holds, bind_assoc]
    simp only [pure_bind, List.findM?]
    congr 1
    funext v
    split
    · rfl
    · rw [Option.elim_none, Branch.remainder_of_not_chained h]
      cases otherwise with
      | none => rfl
      | some nodes =>
        split
        · contradiction
        · rename_i hchained
          exact (h _ _ _ _ hchained).elim
        · rename_i hnodes
          rw [Option.getD_some, Option.some.inj hnodes]

/-- Where plain readings do not run out of levels, an if-block adds what they say and ends as they
do, whichever blocks are read plainly. Its conditions are tried in their order up to the first that
holds, and then the nodes behind that have all levels left but one, however far down the chain they
are found; if they need none, one level is enough. -/
theorem means_ifBlock_of_plain (setup : Setup) {levels : Nat} (name : String)
    (position : Position) (path : Path) (body : List Node) (otherwise : Option (List Node))
    {s : Session} (hlevels : LevelsLeft levels s) :
    (∀ plain : Node → Bool,
      (plainMeaning plain setup s.depth.limit levels name s.context.environment
        (.ifBlock position path body otherwise)).exceedsDepth = false →
      Means (node setup levels name (.ifBlock position path body otherwise)) s
        (plainMeaning plain setup s.depth.limit levels name s.context.environment
          (.ifBlock position path body otherwise))) ∧
    (selectBranch setup name position path body otherwise = do
      let first ← (Branch.chain position path body otherwise).findM? (Branch.holds setup name)
      return first.elim (Branch.remainder otherwise) Branch.body) ∧
    ∀ inner nodes, levels = inner + 1 →
      Looks (selectBranch setup name position path body otherwise) s (.ok nodes) →
      Means (node setup levels name (.ifBlock position path body otherwise)) s
        (concat (nodes.map (nodeMeaning setup s.depth.limit inner name s.context.environment))) ∧
      ((∀ n ∈ nodes, n.isLeaf = true) →
        (concat (nodes.map (nodeMeaning setup s.depth.limit inner name
          s.context.environment))).exceedsDepth = false) := by
  have hmeans := means_node setup levels name (.ifBlock position path body otherwise) s hlevels
  have hselected := selectBranch_eq_findM? setup name position path body otherwise
  refine ⟨fun plain hdepth => ?_, hselected, ?_⟩
  · rwa [plainMeaning_refinedBy (Nat.le_refl levels) _ _ _ hdepth] at hmeans
  · rintro inner nodes rfl hselect
    have hbranch : s.context.environment.findBranch setup name position path body otherwise =
        .ok nodes := by
      have hfound := looks_selectBranch setup name position path body otherwise s
      exact (Prod.mk.inj (hfound.symm.trans hselect)).1
    rw [nodeMeaning, hbranch] at hmeans
    have hleaf := Meaning.kept_leaf setup s.depth.limit
    exact ⟨hmeans, hleaf.nodes (hleaf.node inner) name s.context.environment⟩

def chainSetup : Setup := ⟨.standard .html, none, false, "default"⟩

def chainElse : Option (List Node) :=
  some [.ifBlock ⟨9, 1, 10⟩ ⟨["b"], false⟩ [.text ⟨25, 1, 26⟩ "B"] (some
    [.ifBlock ⟨26, 1, 27⟩ ⟨["c"], false⟩ [.text ⟨42, 1, 43⟩ "C"] none])]

/-- No `b` is there to be found, and `c` is a number. -/
def chainReader (limit : Int) : Session :=
  ⟨.root (.record [("a", .scalar (.truth false)), ("c", .integer 0)]), .start limit, []⟩

/-- Read plainly, the third block takes the third level. One level is enough for all three. -/
theorem means_ifBlock_of_plain_chained :
    LevelsLeft 3 (chainReader 3) ∧ LevelsLeft 1 (chainReader 1) ∧
    (plainMeaning (fun _ => true) chainSetup 1 1 "t" (chainReader 1).context.environment
      (.ifBlock ⟨0, 1, 1⟩ ⟨["a"], false⟩ [.text ⟨8, 1, 9⟩ "A"] chainElse)).exceedsDepth = true ∧
    Means (node chainSetup 3 "t"
        (.ifBlock ⟨0, 1, 1⟩ ⟨["a"], false⟩ [.text ⟨8, 1, 9⟩ "A"] chainElse))
      (chainReader 3) (saying "C") ∧
    Means (node chainSetup 1 "t"
        (.ifBlock ⟨0, 1, 1⟩ ⟨["a"], false⟩ [.text ⟨8, 1, 9⟩ "A"] chainElse))
      (chainReader 1) (saying "C") := by
  have hlevels : LevelsLeft 3 (chainReader 3) := rfl
  have hlevel : LevelsLeft 1 (chainReader 1) := rfl
  have hplain : plainMeaning (fun _ => true) chainSetup 3 3 "t" (chainReader 3).context.environment
      (.ifBlock ⟨0, 1, 1⟩ ⟨["a"], false⟩ [.text ⟨8, 1, 9⟩ "A"] chainElse) = saying "C" := by
    cbv
  have hselect : Looks (selectBranch chainSetup "t" ⟨0, 1, 1⟩ ⟨["a"], false⟩
      [.text ⟨8, 1, 9⟩ "A"] chainElse) (chainReader 1) (.ok [.text ⟨42, 1, 43⟩ "C"]) := by
    cbv
  have hdeep := (means_ifBlock_of_plain chainSetup "t" ⟨0, 1, 1⟩ ⟨["a"], false⟩
    [.text ⟨8, 1, 9⟩ "A"] chainElse hlevels).1 (fun _ => true)
  have hflat := (means_ifBlock_of_plain chainSetup "t" ⟨0, 1, 1⟩ ⟨["a"], false⟩
    [.text ⟨8, 1, 9⟩ "A"] chainElse hlevel).2.2 0 _ rfl hselect
  refine ⟨hlevels, hlevel, by cbv, ?_, hflat.1⟩
  have hmeans := hdeep (by rw [show (chainReader 3).depth.limit = 3 from rfl, hplain]; rfl)
  rwa [show (chainReader 3).depth.limit = 3 from rfl, hplain] at hmeans

end RenderM

end TextTemplate
