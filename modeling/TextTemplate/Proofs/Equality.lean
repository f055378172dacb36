import TextTemplate.Memory
import TextTemplate.Proofs.Parts

/-! Equality of values. It sees the types of scalars and not the order of fields. It is symmetric
and transitive on all objects, and only a NaN differs from itself: as a part, even that is the same
wherever one object is met on both sides. -/

namespace TextTemplate

namespace Scalar

/-- Scalars of one type with equal data. -/
inductive Same : Scalar → Scalar → Prop
  | text (s : String) : Same (text s) (text s)
  | integer (n : Int) : Same (integer n) (integer n)
  | real {x y : Float} : (x == y) = true → Same (real x) (real y)
  | truth (b : Bool) : Same (truth b) (truth b)

variable {a b c : Scalar}

theorem eq_of_equal (h : a.equal b = true) (hreal : ∀ x, a ≠ .real x) :
    a = b := by
  cases a with
  | real x => exact absurd rfl (hreal x)
  | text | integer | truth => cases b <;> simp_all [equal]

theorem equal_eq_true_iff : a.equal b = true ↔ a.Same b := by
  constructor
  · intro h
    cases a with
    | real x =>
      cases b with
      | real y => exact .real h
      | text | integer | truth => cases h
    | text | integer | truth =>
      obtain rfl := eq_of_equal h (by simp)
      constructor
  · intro h
    cases h with
    | real hxy => exact hxy
    | text | integer | truth => simp [equal]

theorem equal_self_iff : a.equal a = true ↔ ∀ x, a = .real x → x.isNaN = false := by
  cases a <;> simp [equal]

theorem equal_symm (h : a.equal b = true) : b.equal a = true := by
  cases a with
  | real x =>
    cases b with
    | real y => exact BEq.symm (α := Float) h
    | text | integer | truth => cases h
  | text | integer | truth => cases b <;> simp_all [equal]

theorem equal_trans (h : a.equal b = true) (h' : b.equal c = true) : a.equal c = true := by
  cases b with
  | real y =>
    cases a with
    | real x =>
      cases c with
      | real z => exact PartialEquivBEq.trans (α := Float) h h'
      | text | integer | truth => cases h'
    | text | integer | truth => cases h
  | text | integer | truth => cases a <;> cases c <;> simp_all [equal]

end Scalar

namespace Cell

/-- Cells of one variant with related parts: items by position and fields by name. -/
inductive Alike (R : Nat → Nat → Prop) {a b : Nat} : Cell a → Cell b → Prop
  | scalar {x y : Scalar} : x.equal y = true → Alike R (.scalar x) (.scalar y)
  | sequence {xs : List (Fin a)} {ys : List (Fin b)} :
      List.Forall₂ (fun (x : Fin a) (y : Fin b) => R x y) xs ys →
      Alike R (.sequence xs) (.sequence ys)
  | record {fs : NameMap (Fin a)} {gs : NameMap (Fin b)} {hfs : fs.names.Nodup}
      {hgs : gs.names.Nodup} :
      (∀ name, Option.Rel (fun (x : Fin a) (y : Fin b) => R x y) (fs.get? name) (gs.get? name)) →
      Alike R (.record fs hfs) (.record gs hgs)
  | absent : Alike R .absent .absent

section Inversion

variable {R : Nat → Nat → Prop} {a b : Nat}

theorem alike_scalar_iff {x y : Scalar} :
    (scalar x : Cell a).Alike R (scalar y : Cell b) ↔ x.equal y = true :=
  ⟨fun | .scalar h => h, .scalar⟩

theorem alike_sequence_iff {xs : List (Fin a)} {ys : List (Fin b)} :
    (sequence xs).Alike R (sequence ys) ↔
      List.Forall₂ (fun (x : Fin a) (y : Fin b) => R x y) xs ys :=
  ⟨fun | .sequence h => h, .sequence⟩

theorem alike_record_iff {fs : NameMap (Fin a)} {gs : NameMap (Fin b)} {hfs : fs.names.Nodup}
    {hgs : gs.names.Nodup} : (record fs hfs).Alike R (record gs hgs) ↔
      ∀ name, Option.Rel (fun (x : Fin a) (y : Fin b) => R x y) (fs.get? name)
        (gs.get? name) :=
  ⟨fun | .record h => h, .record⟩

end Inversion

namespace Alike

variable {R S T : Nat → Nat → Prop} {a b c : Nat} {x : Cell a} {y : Cell b} {z : Cell c}

theorem kind_eq (h : x.Alike R y) : x.kind = y.kind := by
  cases h <;> rfl

theorem symm (h : x.Alike R y) (hflip : ∀ i < a, ∀ j, R i j → S j i) : y.Alike S x := by
  cases h with
  | scalar hxy => exact .scalar (Scalar.equal_symm hxy)
  | sequence hitems =>
    exact .sequence (List.Forall₂.flip (hitems.imp fun (i : Fin a) (j : Fin b) hij =>
      hflip i i.isLt j hij))
  | record hfields =>
    refine .record fun name => ?_
    obtain ⟨hsome, hparts⟩ := option_rel_iff.mp (hfields name)
    exact option_rel_iff.mpr ⟨hsome.symm, fun j i hj hi => hflip i i.isLt j (hparts i j hi hj)⟩
  | absent => exact .absent

theorem trans (h : x.Alike R y) (h' : y.Alike S z)
    (hcomp : ∀ i < a, ∀ j k, R i j → S j k → T i k) : x.Alike T z := by
  cases h with
  | scalar hxy =>
    cases h' with
    | scalar hyz => exact .scalar (Scalar.equal_trans hxy hyz)
  | @sequence xs ys hxs =>
    cases h' with
    | @sequence _ zs hys =>
      refine .sequence (List.forall₂_iff_get.mpr ⟨hxs.length_eq.trans hys.length_eq, ?_⟩)
      intro i hi hk
      have hj : i < ys.length := hxs.length_eq ▸ hi
      exact hcomp _ (Fin.isLt _) _ _ (hxs.get hi hj) (hys.get hj hk)
  | record hfs =>
    cases h' with
    | record hgs =>
      refine .record fun name => ?_
      obtain ⟨hsome, hparts⟩ := option_rel_iff.mp (hfs name)
      obtain ⟨hsome', hparts'⟩ := option_rel_iff.mp (hgs name)
      refine option_rel_iff.mpr ⟨hsome.trans hsome', fun i k hi hk => ?_⟩
      -- The record in the middle has a field of this name too.
      obtain ⟨j, hj⟩ := Option.isSome_iff_exists.mp (hsome.mp (Option.isSome_of_eq_some hi))
      exact hcomp i i.isLt j k (hparts i j hi hj) (hparts' j k hj hk)
  | absent =>
    cases h' with
    | absent => exact .absent

end Alike

end Cell

namespace Memory

variable {m : Memory} {a b c : Nat}

/-- The same object, or equal ones. -/
def Same (m : Memory) (a b : Nat) : Prop :=
  a = b ∨ m.equal a b = true

theorem same_eq_true_iff : m.same a b = true ↔ m.Same a b := by
  rw [same, Bool.or_eq_true, beq_iff_eq, Same]

theorem all_zip_iff {xs : List (Fin a)} {ys : List (Fin b)} :
    (xs.length == ys.length &&
      (xs.zip ys).all fun (x, y) => x.val == y.val || m.equal x y) = true ↔
    List.Forall₂ (fun (x : Fin a) (y : Fin b) => m.Same x y) xs ys := by
  rw [List.forall₂_iff_zip]
  simp [Same]

theorem all_get?_iff {fs : NameMap (Fin a)} {gs : NameMap (Fin b)} (hfs : fs.names.Nodup)
    (hgs : gs.names.Nodup) :
    (fs.length == gs.length && fs.all fun (name, x) =>
      match gs.get? name with
      | some y => x.val == y.val || m.equal x y
      | none => false) = true ↔
    ∀ name, Option.Rel (fun (x : Fin a) (y : Fin b) => m.Same x y) (fs.get? name)
      (gs.get? name) := by
  rw [NameMap.rel_get?_iff hfs hgs, Bool.and_eq_true, beq_iff_eq, List.all_eq_true]
  refine and_congr_right fun _ => forall₂_congr ?_
  rintro ⟨name, x⟩ -
  dsimp only
  cases gs.get? name <;> simp [Same]

/-- Equality asks for the same parts in the same places. -/
theorem equal_iff : m.equal a b = true ↔ (m a).Alike m.Same (m b) := by
  rw [equal]
  generalize m a = x, m b = y
  constructor
  · intro h
    split at h
    · exact .scalar h
    · exact .sequence (all_zip_iff.mp h)
    · rename_i fs hfs gs hgs
      exact .record ((all_get?_iff hfs hgs).mp h)
    · exact .absent
    · cases h
  · intro h
    cases h with
    | scalar hxy => exact hxy
    | sequence hitems => exact all_zip_iff.mpr hitems
    | @record _ _ hfs hgs hfields => exact (all_get?_iff hfs hgs).mpr hfields
    | absent => rfl

/-- Two records with the same fields in both orders. -/
def swapped : Memory
  | 0 => .scalar (.text "1")
  | 1 => .scalar (.integer 2)
  | 2 => .record [("x", 0), ("y", 1)] (by decide)
  | 3 => .record [("y", 1), ("x", 0)] (by decide)
  | _ => .absent

theorem equal_swapped : swapped.equal 2 3 = true := by cbv

/-- An object has the same parts as itself, so that only its own data can differ from themselves. -/
theorem equal_self_iff :
    m.equal a a = true ↔ ∀ x, m a = .scalar (.real x) → x.isNaN = false := by
  rw [equal_iff]
  cases m a with
  | scalar x =>
    rw [Cell.alike_scalar_iff, Scalar.equal_self_iff]
    simp
  | sequence items =>
    refine iff_of_true (Cell.alike_sequence_iff.mpr ?_) (by simp)
    exact List.forall₂_same.mpr fun x _ => .inl rfl
  | record fields hfields =>
    refine iff_of_true (Cell.alike_record_iff.mpr fun name => ?_) (by simp)
    cases fields.get? name with
    | none => exact .none
    | some x => exact .some (.inl rfl)
  | absent => exact iff_of_true .absent (by simp)

theorem equal_symm (h : m.equal a b = true) : m.equal b a = true := by
  induction a using Nat.strongRecOn generalizing b with
  | ind a ih =>
    refine equal_iff.mpr ((equal_iff.mp h).symm fun i hi j hij => ?_)
    exact hij.imp Eq.symm fun hij => ih i hi hij

theorem equal_trans (h : m.equal a b = true) (h' : m.equal b c = true) : m.equal a c = true := by
  induction a using Nat.strongRecOn generalizing b c with
  | ind a ih =>
    refine equal_iff.mpr ((equal_iff.mp h).trans (equal_iff.mp h') fun i hi j k hij hjk => ?_)
    obtain rfl | hij := hij
    · exact hjk
    · obtain rfl | hjk := hjk
      · exact .inr hij
      · exact .inr (ih i hi hij hjk)

theorem Same.symm (h : m.Same a b) : m.Same b a :=
  h.imp Eq.symm equal_symm

theorem Same.trans (h : m.Same a b) (h' : m.Same b c) : m.Same a c := by
  obtain rfl | h := h
  · exact h'
  · obtain rfl | h' := h'
    · exact .inr h
    · exact .inr (equal_trans h h')

theorem same_iff : m.Same a b ↔
    m.equal a b = true ∨ a = b ∧ ∃ x, m a = .scalar (.real x) ∧ x.isNaN = true := by
  constructor
  · rintro (rfl | h)
    · by_cases hself : m.equal a a = true
      · exact .inl hself
      · rw [equal_self_iff] at hself
        simp only [not_forall, Bool.not_eq_false] at hself
        obtain ⟨x, hx, hnan⟩ := hself
        exact .inr ⟨rfl, x, hx, hnan⟩
    · exact .inl h
  · rintro (h | ⟨h, -⟩)
    · exact .inr h
    · exact .inl h

end Memory

end TextTemplate
