import TextTemplate.Proofs.Meaning
import TextTemplate.Proofs.Result

/-! The nodes of a tree in the order of the source, and the lists of nodes that a block renders. -/

namespace TextTemplate

namespace Node

mutual

def preorder : Node → List Node
  | ifBlock position condition body otherwise =>
    ifBlock position condition body otherwise :: (listPreorder body ++ optionPreorder otherwise)
  | forBlock position item index source body =>
    forBlock position item index source body :: listPreorder body
  | withBlock position name source body =>
    withBlock position name source body :: listPreorder body
  | n => [n]

def listPreorder : List Node → List Node
  | [] => []
  | n :: nodes => n.preorder ++ listPreorder nodes

def optionPreorder : Option (List Node) → List Node
  | none => []
  | some nodes => listPreorder nodes

end

theorem mem_preorder_self (n : Node) : n ∈ n.preorder := by
  cases n <;> simp [preorder]

@[simp] theorem listPreorder_singleton (n : Node) : listPreorder [n] = n.preorder := by
  rw [listPreorder, listPreorder, List.append_nil]

theorem preorder_subset_of_mem {n : Node} {nodes : List Node} (h : n ∈ nodes) :
    n.preorder ⊆ listPreorder nodes := by
  induction nodes with
  | nil => cases h
  | cons m nodes ih =>
    rw [listPreorder]
    rcases List.mem_cons.mp h with rfl | hmem
    · exact List.subset_append_left _ _
    · have hrest := ih hmem
      exact List.Subset.trans hrest (List.subset_append_right _ _)

/-- The lists that an if-block with this body and this else part chooses from. A chained block's
own lists are among them. -/
inductive Alternative : List Node → Option (List Node) → List Node → Prop
  | body {body : List Node} {otherwise : Option (List Node)} : Alternative body otherwise body
  | nothing {body : List Node} : Alternative body none []
  | otherwise {body nodes : List Node}
      (h : ∀ position condition body otherwise,
        nodes ≠ [ifBlock position condition body otherwise]) : Alternative body (some nodes) nodes
  | chained {body inner nodes : List Node} {position : Position} {condition : Path}
      {otherwise : Option (List Node)} (h : Alternative inner otherwise nodes) :
      Alternative body (some [ifBlock position condition inner otherwise]) nodes

theorem Alternative.preorder_subset {body nodes : List Node} {otherwise : Option (List Node)}
    (h : Alternative body otherwise nodes) :
    listPreorder nodes ⊆ listPreorder body ++ optionPreorder otherwise := by
  induction h with
  | body => exact List.subset_append_left _ _
  | nothing => exact List.nil_subset _
  | otherwise => exact List.subset_append_right _ _
  | chained h ih =>
    intro n hn
    have hinner := ih hn
    simp only [optionPreorder, listPreorder, preorder, List.append_nil]
    exact List.mem_append_right _ (List.mem_cons_of_mem _ hinner)

/-- The lists of its own nodes that a block renders. -/
inductive Renders : Node → List Node → Prop
  | ifBlock {position : Position} {condition : Path} {body nodes : List Node}
      {otherwise : Option (List Node)} (h : Alternative body otherwise nodes) :
      Renders (ifBlock position condition body otherwise) nodes
  | forBlock {position : Position} {item : String} {index : Option String} {source : Path}
      {body : List Node} : Renders (forBlock position item index source body) body
  | withBlock {position : Position} {name : String} {source : Path} {body : List Node} :
      Renders (withBlock position name source body) body

theorem Renders.preorder_subset {block : Node} {nodes : List Node} (h : Renders block nodes) :
    listPreorder nodes ⊆ block.preorder := by
  cases h with
  | ifBlock h => exact List.subset_cons_of_subset _ h.preorder_subset
  | forBlock => exact List.subset_cons_self _ _
  | withBlock => exact List.subset_cons_self _ _

end Node

theorem Environment.alternative_of_findBranch {ρ : Environment} {setup : Setup} {name : String}
    {position : Position} {path : Path} {body nodes : List Node}
    {otherwise : Option (List Node)}
    (h : ρ.findBranch setup name position path body otherwise = .ok nodes) :
    Node.Alternative body otherwise nodes := by
  fun_induction findBranch ρ setup name position path body otherwise with
  | case1 position path body otherwise ih =>
    obtain ⟨v, -, h⟩ := bind_eq_ok.mp h
    by_cases hv : v.isTruthy = true
    · rw [if_pos hv] at h
      obtain rfl := Except.ok.inj h
      exact .body
    · rw [if_neg hv] at h
      split at h
      · exact .chained (ih h)
      · rename_i hchain
        obtain rfl := Except.ok.inj h
        cases otherwise with
        | none => exact .nothing
        | some nodes =>
          refine .otherwise ?_
          rintro position condition body otherwise rfl
          exact hchain _ _ _ _ rfl

end TextTemplate
