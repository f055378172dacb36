import TextTemplate.Node
import TextTemplate.Proofs.Decimal

/-! The trees that have a source text, and how deep their blocks are nested. Neither depends on
the positions in a tree. -/

namespace TextTemplate

/-- Names are identifiers that are no keywords. -/
def IsName (name : String) : Prop :=
  IsIdentifier name.toList ∧ Keyword.ofWord? name = none

def IsSegment (segment : String) : Prop :=
  IsName segment ∨ IsInteger segment.toList

def Path.WellFormed (p : Path) : Prop :=
  if p.fromCurrent then ∀ segment ∈ p.segments, IsSegment segment
  else ∃ first more, p.segments = first :: more ∧ IsName first ∧
    ∀ segment ∈ more, IsSegment segment

/-- Integers are neither negative nor longer than what can be read. -/
def Literal.WellFormed : Literal → Prop
  | .text _ => True
  | .integer n => 0 ≤ n ∧ (Nat.toDigits 10 n.toNat).length ≤ maxIntegerDigits

def FormatterCall.WellFormed (f : FormatterCall) : Prop :=
  IsName f.name ∧ ∀ literal ∈ f.arguments, literal.WellFormed

namespace Node

def isText : Node → Bool
  | text _ _ => true
  | _ => false

def beginsWithText : List Node → Bool
  | n :: _ => n.isText
  | [] => false

mutual

def WellFormed : Node → Prop
  | text _ t => t ≠ "" ∧ ¬ HasDouble '{' t.toList
  | comment _ t => trim t = t ∧ ¬ HasDouble '}' t.toList
  | value _ p f => p.WellFormed ∧ ∀ call ∈ f, call.WellFormed
  | ifBlock _ condition body otherwise =>
    condition.WellFormed ∧ ListWellFormed body ∧ OptionWellFormed otherwise
  | forBlock _ item index source body =>
    IsName item ∧ (∀ name ∈ index, IsName name) ∧ source.WellFormed ∧ ListWellFormed body
  | withBlock _ name source body => IsName name ∧ source.WellFormed ∧ ListWellFormed body
  | call _ _ root arguments =>
    (∀ p ∈ root, p.WellFormed) ∧
      (∀ argument ∈ arguments, IsName argument.1 ∧ argument.2.WellFormed) ∧
      (arguments.map Prod.fst).Nodup

/-- No two texts stand side by side. -/
def ListWellFormed : List Node → Prop
  | [] => True
  | n :: nodes =>
    n.WellFormed ∧ ¬ (n.isText = true ∧ beginsWithText nodes = true) ∧ ListWellFormed nodes

def OptionWellFormed : Option (List Node) → Prop
  | none => True
  | some nodes => ListWellFormed nodes

end

mutual

/-- The blocks that are open at once at most, where an else part that is exactly one if-block
goes on with the block around it. -/
def nesting : Node → Nat
  | text .. | comment .. | value .. | call .. => 0
  | ifBlock _ _ body otherwise => max (listNesting body) (otherwiseNesting otherwise) + 1
  | forBlock _ _ _ _ body => listNesting body + 1
  | withBlock _ _ _ body => listNesting body + 1

def listNesting : List Node → Nat
  | [] => 0
  | n :: nodes => max n.nesting (listNesting nodes)

def otherwiseNesting : Option (List Node) → Nat
  | none => 0
  | some [ifBlock _ _ body otherwise] => max (listNesting body) (otherwiseNesting otherwise)
  | some nodes => listNesting nodes

end

/-- The else part that goes on with the block around it. -/
def isChained : List Node → Bool
  | [ifBlock _ _ _ _] => true
  | _ => false

theorem otherwiseNesting_some (nodes : List Node) :
    otherwiseNesting (some nodes) =
      if isChained nodes then listNesting nodes - 1 else listNesting nodes := by
  unfold otherwiseNesting isChained
  split <;> simp_all [listNesting, nesting]

theorem isChained_of_sameList {nodes nodes' : List Node} (h : sameList nodes nodes' = true) :
    isChained nodes = isChained nodes' := by
  match nodes, nodes' with
  | [], [] => rfl
  | [n], [m] => cases n <;> cases m <;> first | rfl | simp [sameList, same] at h
  | n :: _ :: _, m :: _ :: _ => cases n <;> cases m <;> rfl
  | [], _ :: _ => simp [sameList] at h
  | _ :: _, [] => simp [sameList] at h
  | [_], _ :: _ :: _ => simp [sameList] at h
  | _ :: _ :: _, [_] => simp [sameList] at h

theorem isText_of_same {n m : Node} (h : n.same m = true) : n.isText = m.isText := by
  cases n <;> cases m <;> first | rfl | simp [same] at h

theorem beginsWithText_of_sameList {nodes nodes' : List Node} (h : sameList nodes nodes' = true) :
    beginsWithText nodes = beginsWithText nodes' := by
  cases nodes <;> cases nodes' <;> simp [sameList] at h
  · rfl
  · exact isText_of_same h.1

mutual

theorem wellFormed_of_same {n m : Node} (h : n.same m = true) :
    (n.WellFormed ↔ m.WellFormed) ∧ n.nesting = m.nesting := by
  match n with
  | .text _ t => cases m <;> simp_all [same, WellFormed, nesting]
  | .comment _ t => cases m <;> simp_all [same, WellFormed, nesting]
  | .value _ p f => cases m <;> simp_all [same, WellFormed, nesting]
  | .call _ name root arguments => cases m <;> simp_all [same, WellFormed, nesting]
  | .ifBlock _ condition body otherwise =>
    cases m with
    | ifBlock _ condition' body' otherwise' =>
      simp only [same, Bool.and_eq_true, beq_iff_eq] at h
      obtain ⟨hbody, hnesting⟩ := listWellFormed_of_same h.1.2
      obtain ⟨hotherwise, hnesting'⟩ := optionWellFormed_of_same h.2
      simp only [WellFormed, nesting, h.1.1, hbody, hotherwise, hnesting, hnesting', and_self]
    | text | comment | value | forBlock | withBlock | call => simp [same] at h
  | .forBlock _ item index source body =>
    cases m with
    | forBlock _ item' index' source' body' =>
      simp only [same, Bool.and_eq_true, beq_iff_eq] at h
      obtain ⟨hbody, hnesting⟩ := listWellFormed_of_same h.2
      obtain ⟨⟨⟨rfl, rfl⟩, rfl⟩, -⟩ := h
      simp only [WellFormed, nesting, hbody, hnesting, and_self]
    | text | comment | value | ifBlock | withBlock | call => simp [same] at h
  | .withBlock _ name source body =>
    cases m with
    | withBlock _ name' source' body' =>
      simp only [same, Bool.and_eq_true, beq_iff_eq] at h
      obtain ⟨hbody, hnesting⟩ := listWellFormed_of_same h.2
      simp only [WellFormed, nesting, h.1.1, h.1.2, hbody, hnesting, and_self]
    | text | comment | value | ifBlock | forBlock | call => simp [same] at h

theorem listWellFormed_of_same {nodes nodes' : List Node} (h : sameList nodes nodes' = true) :
    (ListWellFormed nodes ↔ ListWellFormed nodes') ∧ listNesting nodes = listNesting nodes' := by
  match nodes with
  | [] => cases nodes' <;> simp_all [sameList]
  | n :: nodes =>
    cases nodes' with
    | nil => simp [sameList] at h
    | cons m nodes' =>
      simp only [sameList, Bool.and_eq_true] at h
      obtain ⟨hn, hnesting⟩ := wellFormed_of_same h.1
      obtain ⟨hnodes, hnesting'⟩ := listWellFormed_of_same h.2
      simp only [ListWellFormed, listNesting, hn, hnodes, hnesting, hnesting',
        isText_of_same h.1, beginsWithText_of_sameList h.2, and_self]

theorem optionWellFormed_of_same {otherwise otherwise' : Option (List Node)}
    (h : sameOption otherwise otherwise' = true) :
    (OptionWellFormed otherwise ↔ OptionWellFormed otherwise') ∧
      otherwiseNesting otherwise = otherwiseNesting otherwise' := by
  match otherwise, otherwise' with
  | none, none => simp
  | none, some _ => simp [sameOption] at h
  | some _, none => simp [sameOption] at h
  | some nodes, some nodes' =>
    rw [sameOption] at h
    obtain ⟨hnodes, hnesting⟩ := listWellFormed_of_same h
    refine ⟨by simpa only [OptionWellFormed] using hnodes, ?_⟩
    rw [otherwiseNesting_some, otherwiseNesting_some, isChained_of_sameList h, hnesting]

end

end Node

end TextTemplate
