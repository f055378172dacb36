import Mathlib
import TextTemplate.Proofs.Equality

/-! Sets of values. A set merges what is equal only if the hashes are equal too, and the hash of a
record depends on the order of its fields. So a set counts the classes of equality exactly if equal
values in it have equal hashes, as they have if their fields are in one order. -/

namespace TextTemplate

section Classes

variable {α ι : Type}

/-- The number of classes that the items of a list fall into, if related ones share a class. Items
in different places are different items. -/
noncomputable def classCount (related : α → α → Bool) (items : List α) : Nat :=
  Nat.card (Quot fun i j : Fin items.length => related items[i] items[j] = true)

section Option

variable {r : ι → ι → Prop} {s : Option ι → Option ι → Prop}

/-- A further item that is related to no other one is in a class of its own. -/
theorem card_quot_of_alone [Finite ι] (hsome : ∀ i j, s (some i) (some j) ↔ r i j)
    (hleft : ∀ i, ¬ s none (some i)) (hright : ∀ i, ¬ s (some i) none) :
    Nat.card (Quot s) = Nat.card (Quot r) + 1 := by
  let forward : Quot s → Option (Quot r) := Quot.lift (Option.map (Quot.mk r)) (by
    rintro (_ | i) (_ | j) h
    · rfl
    · exact absurd h (hleft j)
    · exact absurd h (hright i)
    · exact congrArg some (Quot.sound ((hsome i j).mp h)))
  let backward : Option (Quot r) → Quot s := fun class? =>
    class?.elim (Quot.mk s none) (Quot.lift (fun i => Quot.mk s (some i)) fun i j h =>
      Quot.sound ((hsome i j).mpr h))
  have hleftInverse : Function.LeftInverse backward forward := by
    rintro ⟨_ | i⟩
    · rfl
    · rfl
  have hrightInverse : Function.RightInverse backward forward := by
    rintro (_ | class?)
    · rfl
    · induction class? using Quot.ind
      rfl
  rw [Nat.card_congr ⟨forward, backward, hleftInverse, hrightInverse⟩, Finite.card_option]

/-- A further item joins the class of an item that it is related to. -/
theorem card_quot_of_joining (hsome : ∀ i j, s (some i) (some j) ↔ r i j) {i₀ : ι}
    (h₀ : s none (some i₀)) (hleft : ∀ i, s none (some i) → r i₀ i)
    (hright : ∀ i, s (some i) none → r i i₀) : Nat.card (Quot s) = Nat.card (Quot r) := by
  let forward : Quot s → Quot r := Quot.lift (fun i? => Quot.mk r (i?.getD i₀)) (by
    rintro (_ | i) (_ | j) h
    · rfl
    · exact Quot.sound (hleft j h)
    · exact Quot.sound (hright i h)
    · exact Quot.sound ((hsome i j).mp h))
  let backward : Quot r → Quot s := Quot.lift (fun i => Quot.mk s (some i)) fun i j h =>
    Quot.sound ((hsome i j).mpr h)
  have hleftInverse : Function.LeftInverse backward forward := by
    rintro ⟨_ | i⟩
    · exact (Quot.sound h₀).symm
    · rfl
  have hrightInverse : Function.RightInverse backward forward := by
    rintro ⟨i⟩
    rfl
  exact Nat.card_congr ⟨forward, backward, hleftInverse, hrightInverse⟩

end Option

variable {related : α → α → Bool} {items : List α} {x : α}

theorem classCount_nil : classCount related [] = 0 := by
  have hempty : IsEmpty (Quot fun i j : Fin ([] : List α).length =>
      related [][i] [][j] = true) := ⟨Quot.ind fun i => i.elim0⟩
  exact Nat.card_of_isEmpty

theorem classCount_concat (hsymm : ∀ x y, related x y = true → related y x = true)
    (htrans : ∀ x y z, related x y = true → related y z = true → related x z = true) :
    classCount related (items ++ [x]) =
      if items.any (related x) then classCount related items else classCount related items + 1 := by
  let item (i? : Option (Fin items.length)) : α := i?.elim x fun i => items[i]
  let e : Fin (items ++ [x]).length ≃ Option (Fin items.length) :=
    (finCongr (by simp)).trans finSuccEquivLast
  have hitem (i : Fin (items ++ [x]).length) : (items ++ [x])[i] = item (e i) := by
    obtain ⟨i?, rfl⟩ := e.symm.surjective i
    rw [e.apply_symm_apply]
    cases i? <;> simp [e, item]
  have hcount : classCount related (items ++ [x]) =
      Nat.card (Quot fun i? j? => related (item i?) (item j?) = true) := by
    refine Nat.card_congr (Quot.congr e fun i j => ?_)
    rw [hitem, hitem]
  rw [hcount]
  split
  · rename_i hany
    obtain ⟨y, hy, hxy⟩ := List.any_eq_true.mp hany
    obtain ⟨k, hk, rfl⟩ := List.mem_iff_getElem.mp hy
    have hjoin : related (item none) (item (some ⟨k, hk⟩)) = true := hxy
    refine card_quot_of_joining (fun i j => Iff.rfl) hjoin ?_ ?_
    · exact fun i hi => htrans _ _ _ (hsymm _ _ hxy) hi
    · exact fun i hi => htrans _ _ _ hi hxy
  · rename_i hany
    have halone (i : Fin items.length) : ¬ related x items[i] = true := fun hi =>
      hany (List.any_eq_true.mpr ⟨_, List.getElem_mem _, hi⟩)
    refine card_quot_of_alone (fun i j => Iff.rfl) halone ?_
    exact fun i hi => halone i (hsymm _ _ hi)

theorem eq_or_related_of_eqvGen (hsymm : ∀ x y, related x y = true → related y x = true)
    (htrans : ∀ x y z, related x y = true → related y z = true → related x z = true)
    {i j : Fin items.length}
    (h : Relation.EqvGen (fun i j : Fin items.length => related items[i] items[j] = true) i j) :
    i = j ∨ related items[i] items[j] = true := by
  induction h with
  | rel i j h => exact .inr h
  | refl i => exact .inl rfl
  | symm i j _ ih =>
    obtain rfl | h := ih
    · exact .inl rfl
    · exact .inr (hsymm _ _ h)
  | trans i j k _ _ ih ih' =>
    obtain rfl | h := ih
    · exact ih'
    · obtain rfl | h' := ih'
      · exact .inr h
      · exact .inr (htrans _ _ _ h h')

/-- A coarser relation has as many classes only if it relates no more items. -/
theorem classCount_eq_iff {coarser : α → α → Bool}
    (hsymm : ∀ x y, related x y = true → related y x = true)
    (htrans : ∀ x y z, related x y = true → related y z = true → related x z = true)
    (hcoarser : ∀ x ∈ items, ∀ y ∈ items, related x y = true → coarser x y = true)
    (hself : ∀ x ∈ items, coarser x x = true → related x x = true) :
    classCount related items = classCount coarser items ↔
      ∀ x ∈ items, ∀ y ∈ items, coarser x y = true → related x y = true := by
  let coarsen : Quot (fun i j : Fin items.length => related items[i] items[j] = true) →
      Quot (fun i j : Fin items.length => coarser items[i] items[j] = true) :=
    Quot.map id fun i j h => hcoarser _ (List.getElem_mem _) _ (List.getElem_mem _) h
  have hsurjective : Function.Surjective coarsen := by
    rintro ⟨i⟩
    exact ⟨Quot.mk _ i, rfl⟩
  constructor
  · intro hcount x hx y hy hxy
    obtain ⟨i, hi, rfl⟩ := List.mem_iff_getElem.mp hx
    obtain ⟨j, hj, rfl⟩ := List.mem_iff_getElem.mp hy
    have hinjective : Function.Injective coarsen :=
      (hsurjective.bijective_of_nat_card_le hcount.le).1
    have hclass : coarsen (Quot.mk _ ⟨i, hi⟩) = coarsen (Quot.mk _ ⟨j, hj⟩) := Quot.sound hxy
    obtain hij | h := eq_or_related_of_eqvGen hsymm htrans (Quot.eqvGen_exact (hinjective hclass))
    · obtain rfl := Fin.mk.inj hij
      exact hself _ hx hxy
    · exact h
  · intro h
    refine le_antisymm ?_ (Nat.card_le_card_of_surjective _ hsurjective)
    refine Nat.card_le_card_of_surjective (Quot.map id fun i j hij => ?_) ?_
    · exact h _ (List.getElem_mem _) _ (List.getElem_mem _) hij
    · rintro ⟨i⟩
      exact ⟨Quot.mk _ i, rfl⟩

end Classes

section Pointwise

variable {α β γ : Type} {xs : List α} {ys : List β}

theorem map_eq_map_iff_forall₂ {f : α → γ} {g : β → γ} :
    xs.map f = ys.map g ↔ List.Forall₂ (fun x y => f x = g y) xs ys := by
  rw [← List.forall₂_eq_eq_eq, List.forall₂_map_left_iff, List.forall₂_map_right_iff]

theorem forall₂_combine {R S T : α → β → Prop} (h : List.Forall₂ R xs ys)
    (h' : List.Forall₂ S xs ys) (hcombine : ∀ x y, R x y → S x y → T x y) :
    List.Forall₂ T xs ys := by
  rw [List.forall₂_iff_zip] at *
  exact ⟨h.1, fun hmem => hcombine _ _ (h.2 hmem) (h'.2 hmem)⟩

end Pointwise

namespace NameMap

variable {α β : Type} {R : α → β → Prop} {m : NameMap α} {n : NameMap β}

/-- Maps that agree at every name do so in every place, if they have their names in one order. -/
theorem forall₂_of_rel_get? (h : ∀ name, Option.Rel R (m.get? name) (n.get? name))
    (hnames : m.names = n.names) (hnodup : m.names.Nodup) :
    List.Forall₂ (fun x y => x.1 = y.1 ∧ R x.2 y.2) m n := by
  have hlength : m.length = n.length := by
    simpa [names] using congrArg List.length hnames
  refine List.forall₂_iff_get.mpr ⟨hlength, fun i hi hi' => ?_⟩
  have hname : m[i].1 = n[i].1 := by
    have hget : m.names[i]? = n.names[i]? := by rw [hnames]
    simpa [names, hi, hi'] using hget
  have hleft : m.get? m[i].1 = some m[i].2 := get?_of_mem hnodup (List.getElem_mem hi)
  have hright : n.get? m[i].1 = some n[i].2 :=
    get?_of_mem (hnames ▸ hnodup) (hname ▸ List.getElem_mem hi')
  have hrel := h m[i].1
  rw [hleft, hright] at hrel
  cases hrel with
  | some hxy => exact ⟨hname, hxy⟩

end NameMap

namespace Value

/-- Records in the same places have the same names in the same order. -/
inductive SameOrder : Value → Value → Prop
  | scalar {a b : Scalar} : SameOrder (scalar a) (scalar b)
  | sequence {xs ys : List Value} (h : List.Forall₂ SameOrder xs ys) :
      SameOrder (sequence xs) (sequence ys)
  | record {fs gs : List (String × Value)} (hnames : NameMap.names fs = NameMap.names gs)
      (h : List.Forall₂ SameOrder (fs.map Prod.snd) (gs.map Prod.snd)) :
      SameOrder (record fs) (record gs)
  | absent : SameOrder absent absent

theorem SameOrder.refl (v : Value) : SameOrder v v := by
  induction v using induction_parts with
  | scalar a => exact .scalar
  | sequence items ih => exact .sequence (List.forall₂_same.mpr ih)
  | record fields ih => exact .record rfl (List.forall₂_same.mpr (List.forall_mem_map.mpr ih))
  | absent => exact .absent

end Value

namespace Hashing

/-- Different tuples and different texts have different codes. -/
structure IsInjective (hashing : Hashing) : Prop where
  tuple : Function.Injective hashing.tuple
  text : Function.Injective hashing.text

theorem isInjective_symbolic : symbolic.IsInjective where
  tuple := by
    intro codes codes' h
    induction codes generalizing codes' with
    | nil =>
      cases codes' with
      | nil => rfl
      | cons => cases h
    | cons code codes ih =>
      cases codes' with
      | nil => cases h
      | cons code' codes' =>
        obtain ⟨rfl, hrest⟩ := SymbolicCode.pair.inj h
        rw [ih hrest]
  text _ _ h := SymbolicCode.text.inj h

theorem data_eq_of_equal (hashing : Hashing) {x y : Scalar} (h : x.equal y = true) (a b : Nat) :
    hashing.data a x = hashing.data b y := by
  cases Scalar.equal_eq_true_iff.mp h with
  | real hxy => exact hashing.real_eq_of_beq a b _ _ hxy
  | text | integer | truth => rfl

end Hashing

namespace Memory

variable {m : Memory} {hashing : Hashing} {a b c : Nat}

/-- Equal objects that hold their fields in one order have equal hashes. -/
theorem hash_eq_of_sameOrder (h : m.equal a b = true)
    (horder : (m.read a).SameOrder (m.read b)) : m.hash hashing a = m.hash hashing b := by
  induction a using Nat.strongRecOn generalizing b with
  | ind a ih =>
    have hpart (x : Fin a) (y : Nat) (hxy : m.Same x y) (horder : (m.read x).SameOrder (m.read y)) :
        m.hash hashing x = m.hash hashing y := by
      obtain rfl | hxy := hxy
      · rfl
      · exact ih x x.isLt hxy horder
    have halike := equal_iff.mp h
    generalize ha : m a = x, hb : m b = y at halike
    cases halike with
    | @scalar x y hxy =>
      obtain htype : x.type = y.type := by
        cases Scalar.equal_eq_true_iff.mp hxy <;> rfl
      rw [hash_of_scalar ha, hash_of_scalar hb, htype, hashing.data_eq_of_equal hxy a b]
    | @sequence xs ys hitems =>
      rw [read_of_sequence ha, read_of_sequence hb] at horder
      cases horder with
      | sequence horders =>
        rw [List.forall₂_map_left_iff, List.forall₂_map_right_iff] at horders
        have hcodes := forall₂_combine hitems horders fun x y => hpart x y
        rw [hash_of_sequence ha, hash_of_sequence hb, map_eq_map_iff_forall₂.mpr hcodes]
    | @record fs gs hfs hgs hfields =>
      rw [read_of_record ha, read_of_record hb] at horder
      cases horder with
      | record hnames horders =>
        rw [NameMap.names_map fs (fun x => m.read x),
          NameMap.names_map gs (fun y => m.read y)] at hnames
        rw [List.map_map, List.map_map, List.forall₂_map_left_iff,
          List.forall₂_map_right_iff] at horders
        have hplaces := NameMap.forall₂_of_rel_get? hfields hnames hfs
        have hcodes := forall₂_combine hplaces horders fun x y hxy horder =>
          (⟨hxy.1, hpart x.2 y.2 hxy.2 horder⟩ : x.1 = y.1 ∧ _)
        rw [hash_of_record ha, hash_of_record hb]
        refine congrArg hashing.tuple (map_eq_map_iff_forall₂.mpr (hcodes.imp ?_))
        rintro ⟨name, x⟩ ⟨name', y⟩ ⟨rfl, hxy⟩
        exact congrArg (fun code => hashing.tuple [_, code]) hxy
    | absent => rw [hash_of_absent ha, hash_of_absent hb]

/-- Injective hashes of equal objects tell the orders of their fields apart. -/
theorem sameOrder_of_hash_eq (hinjective : hashing.IsInjective) (h : m.equal a b = true)
    (hcode : m.hash hashing a = m.hash hashing b) : (m.read a).SameOrder (m.read b) := by
  induction a using Nat.strongRecOn generalizing b with
  | ind a ih =>
    have hpart (x : Fin a) (y : Nat) (hxy : m.Same x y)
        (hcode : m.hash hashing x = m.hash hashing y) : (m.read x).SameOrder (m.read y) := by
      obtain rfl | hxy := hxy
      · exact .refl _
      · exact ih x x.isLt hxy hcode
    have halike := equal_iff.mp h
    generalize ha : m a = x, hb : m b = y at halike
    cases halike with
    | scalar =>
      rw [read_of_scalar ha, read_of_scalar hb]
      exact .scalar
    | @sequence xs ys hitems =>
      rw [hash_of_sequence ha, hash_of_sequence hb] at hcode
      have hcodes := hinjective.tuple (List.singleton_inj.mp (hinjective.tuple hcode))
      rw [read_of_sequence ha, read_of_sequence hb]
      refine .sequence ?_
      rw [List.forall₂_map_left_iff, List.forall₂_map_right_iff]
      exact forall₂_combine hitems (map_eq_map_iff_forall₂.mp hcodes) fun x y => hpart x y
    | @record fs gs hfs hgs hfields =>
      rw [hash_of_record ha, hash_of_record hb] at hcode
      have hcodes : List.Forall₂ (fun x y => x.1 = y.1 ∧
          m.hash hashing x.2 = m.hash hashing y.2) fs gs := by
        refine (map_eq_map_iff_forall₂.mp (hinjective.tuple hcode)).imp fun x y hxy => ?_
        simpa [hinjective.text.eq_iff] using hinjective.tuple hxy
      have hnames : fs.names = gs.names :=
        map_eq_map_iff_forall₂.mpr (hcodes.imp fun _ _ => And.left)
      have hplaces := NameMap.forall₂_of_rel_get? hfields hnames hfs
      rw [read_of_record ha, read_of_record hb]
      refine .record ?_ ?_
      · rw [NameMap.names_map fs (fun x => m.read x), NameMap.names_map gs (fun y => m.read y),
          hnames]
      · rw [List.map_map, List.map_map, List.forall₂_map_left_iff, List.forall₂_map_right_iff]
        exact forall₂_combine hplaces hcodes fun x y hxy hcode => hpart x.2 y.2 hxy.2 hcode.2
    | absent =>
      rw [read_of_absent ha, read_of_absent hb]
      exact .absent

theorem merges_eq_true_iff :
    m.merges hashing a b = true ↔ m.hash hashing a = m.hash hashing b ∧ m.Same a b := by
  rw [merges, Bool.and_eq_true, beq_iff_eq, same_eq_true_iff]

theorem merges_symm (a b : Nat) (h : m.merges hashing a b = true) :
    m.merges hashing b a = true := by
  rw [merges_eq_true_iff] at *
  exact ⟨h.1.symm, h.2.symm⟩

theorem merges_trans (a b c : Nat) (h : m.merges hashing a b = true)
    (h' : m.merges hashing b c = true) : m.merges hashing a c = true := by
  rw [merges_eq_true_iff] at *
  exact ⟨h.1.trans h'.1, h.2.trans h'.2⟩

theorem distinct_concat (objects : List Nat) (a : Nat) :
    m.distinct hashing (objects ++ [a]) =
      if (m.distinct hashing objects).any (m.merges hashing a) then m.distinct hashing objects
      else m.distinct hashing objects ++ [a] := by
  rw [distinct, List.foldl_append]
  rfl

/-- What is kept of the objects stands for all of them. -/
theorem any_distinct (objects : List Nat) (a : Nat) :
    (m.distinct hashing objects).any (m.merges hashing a) =
      objects.any (m.merges hashing a) := by
  induction objects using List.reverseRecOn with
  | nil => rfl
  | append_singleton objects b ih =>
    rw [distinct_concat, List.any_append, List.any_cons, List.any_nil, Bool.or_false]
    split
    · rename_i hkept
      rw [ih, Bool.eq_iff_iff, Bool.or_eq_true_iff, or_iff_left_of_imp]
      intro hab
      obtain ⟨c, hc, hbc⟩ := List.any_eq_true.mp hkept
      rw [← ih]
      exact List.any_eq_true.mpr ⟨c, hc, merges_trans a b c hab hbc⟩
    · rw [List.any_append, ih, List.any_cons, List.any_nil, Bool.or_false]

theorem length_distinct (objects : List Nat) :
    (m.distinct hashing objects).length = classCount (m.merges hashing) objects := by
  induction objects using List.reverseRecOn with
  | nil => exact classCount_nil.symm
  | append_singleton objects a ih =>
    rw [distinct_concat, any_distinct, classCount_concat merges_symm merges_trans, ← ih]
    split
    · rfl
    · rw [List.length_append, List.length_singleton]

theorem length_distinct_pair :
    (m.distinct hashing [a, b]).length = 1 ↔ m.merges hashing b a = true := by
  have hpair : m.distinct hashing [a, b] = if m.merges hashing b a then [a] else [a, b] := by
    simp [distinct]
  rw [hpair]
  split <;> simp [*]

/-- A set merges two objects exactly if they are one, or equal with equal hashes. So it counts the
classes of equality exactly if all equal objects in it have equal hashes. Equal objects that hold
their fields in one order do have them, and with injective hashes no other ones. -/
theorem length_distinct_iff (m : Memory) (hashing : Hashing) :
    (∀ a b, (m.distinct hashing [a, b]).length = 1 ↔
      a = b ∨ m.equal a b = true ∧ m.hash hashing a = m.hash hashing b) ∧
    (∀ objects, (m.distinct hashing objects).length = classCount m.same objects ↔
      ∀ a ∈ objects, ∀ b ∈ objects, m.equal a b = true →
        m.hash hashing a = m.hash hashing b) ∧
    (∀ a b, m.equal a b = true → (m.read a).SameOrder (m.read b) →
      m.hash hashing a = m.hash hashing b) ∧
    (hashing.IsInjective → ∀ a b, m.equal a b = true →
      m.hash hashing a = m.hash hashing b → (m.read a).SameOrder (m.read b)) := by
  refine ⟨fun a b => ?_, fun objects => ?_, fun a b => hash_eq_of_sameOrder,
    fun hinjective a b => sameOrder_of_hash_eq hinjective⟩
  · rw [length_distinct_pair, merges_eq_true_iff]
    constructor
    · rintro ⟨hcode, rfl | hba⟩
      · exact .inl rfl
      · exact .inr ⟨equal_symm hba, hcode.symm⟩
    · rintro (rfl | ⟨hab, hcode⟩)
      · exact ⟨rfl, .inl rfl⟩
      · exact ⟨hcode.symm, .inr (equal_symm hab)⟩
  · rw [length_distinct, classCount_eq_iff merges_symm merges_trans]
    · refine forall₂_congr fun a _ => forall₂_congr fun b _ => ?_
      rw [merges_eq_true_iff, same_eq_true_iff]
      constructor
      · exact fun h hab => (h (.inr hab)).1
      · rintro h (rfl | hab)
        · exact ⟨rfl, .inl rfl⟩
        · exact ⟨h hab, .inr hab⟩
    · intro a _ b _ hab
      exact same_eq_true_iff.mpr (merges_eq_true_iff.mp hab).2
    · intro a _ _
      exact merges_eq_true_iff.mpr ⟨rfl, .inl rfl⟩

/-- The two orders are equal, but they make two elements. -/
theorem length_distinct_iff_swapped :
    swapped.equal 2 3 = true ∧
      (swapped.distinct .symbolic [2, 3]).length ≠ classCount swapped.same [2, 3] := by
  obtain ⟨-, hcount, -, horder⟩ := length_distinct_iff swapped .symbolic
  refine ⟨equal_swapped, fun h => ?_⟩
  have hcode := (hcount _).mp h 2 (by simp) 3 (by simp) equal_swapped
  have hsame := horder Hashing.isInjective_symbolic 2 3 equal_swapped hcode
  rw [read_of_record rfl, read_of_record rfl] at hsame
  cases hsame with
  | record hnames => simp [NameMap.names] at hnames

end Memory

end TextTemplate
