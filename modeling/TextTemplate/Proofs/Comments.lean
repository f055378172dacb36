import TextTemplate.Proofs.ElseIf

/-! Templates without their comments. They render the same, with as many levels or fewer: a comment
beside a lone if-block in an else part is all that keeps the block from being a further condition
of the one around it, and so from taking no level of its own. -/

namespace TextTemplate

namespace Node

def isComment : Node → Bool
  | comment .. => true
  | _ => false

mutual

/-- Takes the comments out of everything that stands inside the node. -/
def withoutComments : Node → Node
  | ifBlock position condition body otherwise =>
    .ifBlock position condition (listWithoutComments body) (optionWithoutComments otherwise)
  | forBlock position item index source body =>
    .forBlock position item index source (listWithoutComments body)
  | withBlock position name source body =>
    .withBlock position name source (listWithoutComments body)
  | n => n

def listWithoutComments : List Node → List Node
  | [] => []
  | n :: nodes =>
    if n.isComment then listWithoutComments nodes
    else n.withoutComments :: listWithoutComments nodes

def optionWithoutComments : Option (List Node) → Option (List Node)
  | none => none
  | some nodes => some (listWithoutComments nodes)

end

end Node

def Template.withoutComments (t : Template) : Template :=
  ⟨t.name, Node.listWithoutComments t.nodes⟩

/-- The same setup, with the comments taken out of every template that can be called. -/
def Setup.withoutComments (setup : Setup) : Setup :=
  { setup with
    library := setup.library.map fun library =>
      library.map fun entry => (entry.1, entry.2.withoutComments) }

theorem Setup.template?_withoutComments (setup : Setup) (name : String) :
    setup.withoutComments.template? name =
      (setup.template? name).map Template.withoutComments := by
  unfold template? withoutComments
  cases setup.library with
  | none => rfl
  | some library => exact NameMap.get?_map library Template.withoutComments name

namespace Meaning

/-- The second meaning is the first one, or goes on from a text that was cut short for want of
levels. -/
structure ContinuedBy (m m' : Meaning) : Prop where
  refined : m.RefinedBy m'
  text : ∃ more, m'.text = m.text ++ more

section Continued

variable {α : Type} {m m' n n' : Meaning}

theorem ContinuedBy.refl (m : Meaning) : m.ContinuedBy m :=
  ⟨.refl m, "", (String.append_empty).symm⟩

theorem continuedBy_of_exceedsDepth (hdepth : m.exceedsDepth = true) (htext : m.text = "") :
    m.ContinuedBy m' := by
  refine ⟨fun hwithin => ?_, m'.text, ?_⟩
  · rw [hdepth] at hwithin
    cases hwithin
  · rw [htext, String.empty_append]

theorem ContinuedBy.append (hm : m.ContinuedBy m') (hn : n.ContinuedBy n') :
    (m.append n).ContinuedBy (m'.append n') := by
  refine ⟨hm.refined.append hn.refined, ?_⟩
  obtain ⟨text, interruption⟩ := m
  cases interruption with
  | none =>
    have hsame := hm.refined rfl
    obtain ⟨more, hmore⟩ := hn.text
    refine ⟨more, ?_⟩
    rw [hsame]
    simp only [Meaning.append, hmore, String.append_assoc]
  | some interruption =>
    -- The first meaning ends here, and whatever the second one has behind `m'` comes after it.
    obtain ⟨more, hmore⟩ := hm.text
    cases hend : m'.interruption with
    | none =>
      refine ⟨more ++ n'.text, ?_⟩
      simp only [Meaning.append, hend, hmore, String.append_assoc]
    | some interruption' =>
      refine ⟨more, ?_⟩
      simp only [Meaning.append, hend, hmore]

theorem continuedBy_concat {f g : α → Meaning} {as : List α}
    (h : ∀ a ∈ as, (f a).ContinuedBy (g a)) :
    (concat (as.map f)).ContinuedBy (concat (as.map g)) := by
  induction as with
  | nil => exact .refl _
  | cons a as ih =>
    obtain ⟨ha, has⟩ := List.forall_mem_cons.mp h
    exact ha.append (ih has)

theorem continuedBy_given {answer : Answer α} {f g : α → Meaning}
    (h : ∀ a, (f a).ContinuedBy (g a)) : (given answer f).ContinuedBy (given answer g) := by
  cases answer with
  | ok a => exact h a
  | error interruption => exact .refl _

end Continued

end Meaning

open Meaning Environment Node

section Comments

variable {setup : Setup} {limit : Int} {levels inner : Nat}

theorem nodeMeaning_of_isComment {n : Node} (h : n.isComment = true) (name : String)
    (ρ : Environment) : nodeMeaning setup limit levels name ρ n = saying "" := by
  cases n with
  | comment => cases levels <;> rfl
  | text | value | ifBlock | forBlock | withBlock | call => cases h

theorem given_findTemplate_withoutComments (name : String) (position : Position)
    (template : String) (m : Template → Meaning) :
    given (findTemplate setup.withoutComments name position template) m =
      given (findTemplate setup name position template) fun t => m t.withoutComments := by
  have hfound := setup.template?_withoutComments template
  unfold Setup.template? at hfound
  rw [findTemplate, findTemplate, hfound]
  cases setup.library.bind (·.get? template) <;> rfl

/-- What an else part renders. Where it is exactly one if-block, the block has all levels that are
left, as if it had one more as a node. -/
theorem exists_levels_otherwise (setup : Setup) (limit : Int) (inner : Nat) (name : String)
    (ρ : Environment) (nodes : List Node) :
    ∃ k, inner ≤ k ∧
      given (match some nodes with
          | some [.ifBlock position path body otherwise] =>
            ρ.findBranch setup name position path body otherwise
          | otherwise => return otherwise.getD [])
        (fun nodes => concat (nodes.map (nodeMeaning setup limit inner name ρ))) =
      concat (nodes.map (nodeMeaning setup limit k name ρ)) := by
  split
  · rename_i hnodes
    obtain rfl := Option.some.inj hnodes
    refine ⟨inner + 1, Nat.le_succ inner, ?_⟩
    rw [List.map_singleton, concat_singleton, nodeMeaning]
  · exact ⟨inner, Nat.le_refl inner, rfl⟩

theorem continuedBy_nodes
    (h : ∀ name ρ n, (nodeMeaning setup limit levels name ρ n).ContinuedBy
      (nodeMeaning setup.withoutComments limit inner name ρ n.withoutComments))
    (name : String) (ρ : Environment) (nodes : List Node) :
    (concat (nodes.map (nodeMeaning setup limit levels name ρ))).ContinuedBy
      (concat ((listWithoutComments nodes).map
        (nodeMeaning setup.withoutComments limit inner name ρ))) := by
  induction nodes with
  | nil => exact .refl _
  | cons n nodes ih =>
    by_cases hcomment : n.isComment = true
    · have hnothing : nodeMeaning setup limit levels name ρ n = saying "" :=
        nodeMeaning_of_isComment hcomment name ρ
      rw [listWithoutComments, if_pos hcomment, List.map_cons, concat_cons, hnothing]
      simpa [Meaning.append, saying] using ih
    · rw [listWithoutComments, if_neg hcomment]
      exact (h name ρ n).append ih

/-- Without comments the walk down a chain of conditions may go on where it ended before. The block
it goes on to was met as a node there, so here it has the level more that it takes there. -/
theorem continuedBy_branch
    (h : ∀ (inner : Nat) name ρ n, levels ≤ inner →
      (nodeMeaning setup limit levels name ρ n).ContinuedBy
        (nodeMeaning setup.withoutComments limit inner name ρ n.withoutComments))
    (hlevels : levels ≤ inner) (name : String) (ρ : Environment) (position : Position)
    (path : Path) (body : List Node) (otherwise : Option (List Node)) :
    (given (ρ.findBranch setup name position path body otherwise) fun nodes =>
        concat (nodes.map (nodeMeaning setup limit levels name ρ))).ContinuedBy
      (given (ρ.findBranch setup.withoutComments name position path (listWithoutComments body)
          (optionWithoutComments otherwise)) fun nodes =>
        concat (nodes.map (nodeMeaning setup.withoutComments limit inner name ρ))) := by
  have hnodes (k : Nat) (hk : levels ≤ k) (nodes : List Node) :=
    continuedBy_nodes (fun name ρ n => h k name ρ n hk) name ρ nodes
  fun_induction findBranch ρ setup name position path body otherwise with
  | case1 position path body otherwise ih =>
    rw [findBranch.eq_def ρ setup.withoutComments, RenderM.given_bind, RenderM.given_bind]
    have hcondition : ρ.findCondition setup.withoutComments name position path =
        ρ.findCondition setup name position path := rfl
    rw [hcondition]
    refine continuedBy_given fun v => ?_
    by_cases hv : v.isTruthy = true
    · rw [if_pos hv, if_pos hv]
      exact hnodes inner hlevels body
    · rw [if_neg hv, if_neg hv]
      split
      · exact ih
      · cases otherwise with
        | none => exact .refl _
        | some nodes =>
          obtain ⟨k, hk, hmeaning⟩ := exists_levels_otherwise setup.withoutComments limit inner
            name ρ (listWithoutComments nodes)
          have hcontinued := hnodes k (Nat.le_trans hlevels hk) nodes
          rw [← hmeaning] at hcontinued
          exact hcontinued

theorem nodeMeaning_continuedBy (hlevels : levels ≤ inner) (name : String) (ρ : Environment)
    (n : Node) :
    (nodeMeaning setup limit levels name ρ n).ContinuedBy
      (nodeMeaning setup.withoutComments limit inner name ρ n.withoutComments) := by
  -- A block or a call leaves one level less on either side, so that the levels stay in order.
  induction levels generalizing inner name ρ n with
  | zero =>
    cases n with
    | text | comment | value => cases inner <;> exact .refl _
    | ifBlock | forBlock | withBlock | call => 
      exact continuedBy_of_exceedsDepth (Interruption.exceedsDepth_tooDeep _ _ _) rfl
  | succ levels ih =>
    obtain ⟨inner, rfl⟩ := Nat.exists_eq_add_one_of_ne_zero (Nat.ne_zero_of_lt hlevels)
    have hinner : levels ≤ inner := by omega
    have hnodes (name : String) (ρ : Environment) (nodes : List Node) :=
      continuedBy_nodes (fun name ρ n => ih hinner name ρ n) name ρ nodes
    cases n with
    | text | comment | value => exact .refl _
    | ifBlock position path body otherwise =>
      rw [withoutComments, nodeMeaning, nodeMeaning]
      exact continuedBy_branch (fun _ name ρ n h => ih h name ρ n) hinner name ρ position path
        body otherwise
    | forBlock position item index source body =>
      rw [withoutComments, nodeMeaning, nodeMeaning]
      refine continuedBy_given fun items => continuedBy_concat fun turn _ => ?_
      exact hnodes name (ρ.turn item index turn.1 turn.2) body
    | withBlock position bound source body =>
      rw [withoutComments, nodeMeaning, nodeMeaning]
      exact continuedBy_given fun v => hnodes name (ρ.bind bound v) body
    | call position template root arguments =>
      have hsame : (call position template root arguments).withoutComments =
          .call position template root arguments := rfl
      rw [hsame, nodeMeaning, nodeMeaning, given_findTemplate_withoutComments]
      exact continuedBy_given fun t => continuedBy_given fun ρ => hnodes t.name ρ t.nodes

end Comments

namespace Template

theorem meaning_continuedBy (t : Template) (setup : Setup) (limit : Int) (root : Value) :
    (t.meaning setup limit root).ContinuedBy
      (t.withoutComments.meaning setup.withoutComments limit root) :=
  continuedBy_nodes (fun name ρ n => nodeMeaning_continuedBy (Nat.le_refl _) name ρ n) t.name
    (.root root) t.nodes

/-- Comments render nothing. A rendering that ends well, or by anything but a want of levels, is the
same once the comments are taken out of the template and of all that it may call; one that wanted
for levels is only ever continued. -/
theorem render_withoutComments (t : Template) (setup : Setup) (limit : Int) (root : Value) :
    ((t.render setup limit root).interruption.any Interruption.exceedsDepth = false →
      (t.withoutComments.render setup.withoutComments limit root).text =
          (t.render setup limit root).text ∧
        (t.withoutComments.render setup.withoutComments limit root).interruption =
          (t.render setup limit root).interruption) ∧
    ((t.render setup limit root).interruption.any Interruption.exceedsDepth = true →
      ∃ more, (t.withoutComments.render setup.withoutComments limit root).text =
        (t.render setup limit root).text ++ more) := by
  obtain ⟨htext, hend⟩ := t.render_eq_meaning setup limit root
  obtain ⟨htext', hend'⟩ :=
    t.withoutComments.render_eq_meaning setup.withoutComments limit root
  have hcontinued := t.meaning_continuedBy setup limit root
  rw [htext, hend, htext', hend']
  refine ⟨fun hdepth => ?_, fun _ => hcontinued.text⟩
  have hsame := hcontinued.refined hdepth
  exact ⟨congrArg Meaning.text hsame, congrArg Meaning.interruption hsame⟩

/-- The second condition would be one of the chain, were it not for the comment before it. -/
def remarked : Template :=
  ⟨"t", [.text ⟨0, 1, 1⟩ "x", .ifBlock ⟨1, 1, 2⟩ ⟨["a"], false⟩ [.text ⟨10, 1, 11⟩ "A"] (some
    [.comment ⟨20, 1, 21⟩ " or b ",
      .ifBlock ⟨31, 1, 32⟩ ⟨["b"], false⟩ [.text ⟨40, 1, 41⟩ "B"] none])]⟩

example :
    let setup : Setup := ⟨[], none, false, "default"⟩
    let root : Value := .record [("b", .integer 1)]
    (remarked.render setup 1 root).interruption =
        some (.error ⟨.depthExceeded 1, ⟨31, 1, 32⟩, "t"⟩) ∧
      (remarked.render setup 1 root).chunks = ["x"] ∧
      (remarked.withoutComments.render setup.withoutComments 1 root).interruption = none ∧
      (remarked.withoutComments.render setup.withoutComments 1 root).chunks = ["x", "B"] := by
  cbv

end Template

end TextTemplate
