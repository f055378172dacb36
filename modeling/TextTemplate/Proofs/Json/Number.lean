import Mathlib
import TextTemplate.Proofs.Decimal
import TextTemplate.Proofs.Json.Grammar
import TextTemplate.Proofs.Shortest
import TextTemplate.Value.Json

/-! Numbers in JSON texts. Integers are written as JSON numbers, and so are the real numbers that
are finite. -/

namespace TextTemplate

open Json

section Digits

variable {digits : List Char}

/-- Digits of a number other than zero, without zeros in front. -/
structure IsLeading (digits : List Char) : Prop where
  isInteger : IsInteger digits
  head?_ne : digits.head? ≠ some '0'

theorem head?_toDigits_ne {n : Nat} (hn : 0 < n) : (Nat.toDigits 10 n).head? ≠ some '0' := by
  induction n using Nat.strongRecOn with
  | ind n ih =>
    by_cases hsmall : n < 10
    · rw [Nat.toDigits_of_lt_base hsmall]
      interval_cases n <;> decide
    · have hquotient : 0 < n / 10 := by omega
      have hhead := ih (n / 10) (by omega) hquotient
      have hne : Nat.toDigits 10 (n / 10) ≠ [] := Nat.toDigits_ne_nil
      rw [Nat.toDigits_of_base_le (by decide) (by omega), List.head?_append_of_ne_nil _ hne]
      exact hhead

theorem isLeading_toDigits {n : Nat} (hn : 0 < n) : IsLeading (Nat.toDigits 10 n) :=
  ⟨isInteger_toDigits n, head?_toDigits_ne hn⟩

theorem IsLeading.exists_cons (h : IsLeading digits) : ∃ first others, digits = first :: others ∧
    first.isDigit = true ∧ first ≠ '0' ∧ others.all Char.isDigit = true := by
  obtain ⟨⟨hne, hall⟩, hhead⟩ := h
  cases digits with
  | nil => exact absurd rfl hne
  | cons first others =>
    obtain ⟨hfirst, hothers⟩ := Bool.and_eq_true_iff.mp hall
    refine ⟨first, others, rfl, hfirst, ?_, hothers⟩
    rintro rfl
    exact hhead rfl

theorem IsLeading.isWhole_append (h : IsLeading digits) {cs : List Char}
    (hcs : cs.all Char.isDigit = true) : IsWhole (digits ++ cs) := by
  obtain ⟨first, others, rfl, hfirst, hzero, hothers⟩ := h.exists_cons
  refine .digits hfirst hzero ?_
  exact List.all_append.trans (Bool.and_eq_true_iff.mpr ⟨hothers, hcs⟩)

theorem IsLeading.isWhole_take (h : IsLeading digits) {n : Nat} (hn : 0 < n) :
    IsWhole (digits.take n) := by
  obtain ⟨first, others, rfl, hfirst, hzero, hothers⟩ := h.exists_cons
  cases n with
  | zero => omega
  | succ n =>
    refine .digits hfirst hzero (List.all_eq_true.mpr fun c hc => ?_)
    exact List.all_eq_true.mp hothers c (List.mem_of_mem_take hc)

theorem isInteger_drop {n : Nat} (h : IsInteger digits) (hn : n < digits.length) :
    IsInteger (digits.drop n) := by
  refine ⟨fun hnil => ?_, List.all_eq_true.mpr fun c hc => ?_⟩
  · have hlength := List.drop_eq_nil_iff.mp hnil
    omega
  · exact List.all_eq_true.mp h.2 c (List.mem_of_mem_drop hc)

theorem all_isDigit_zeros (n : Nat) : (zeros n).toList.all Char.isDigit = true := by
  rw [zeros, String.toList_ofList]
  refine List.all_eq_true.mpr fun c hc => ?_
  obtain rfl := List.eq_of_mem_replicate hc
  rfl

theorem IsLeading.dropTrailingZeros (h : IsLeading digits) :
    IsLeading (RealLayout.dropTrailingZeros digits) := by
  obtain ⟨first, others, rfl, hfirst, hzero, hothers⟩ := h.exists_cons
  have hprefix : RealLayout.dropTrailingZeros (first :: others) <+: first :: others :=
    List.rdropWhile_prefix _ _
  cases hkept : RealLayout.dropTrailingZeros (first :: others) with
  | nil =>
    have hall : ∀ c ∈ first :: others, (c == '0') = true := List.rdropWhile_eq_nil_iff.mp hkept
    exact absurd (beq_iff_eq.mp (hall first List.mem_cons_self)) hzero
  | cons c cs =>
    rw [hkept] at hprefix
    obtain ⟨rfl, hcs⟩ := List.cons_prefix_cons.mp hprefix
    refine ⟨⟨List.cons_ne_nil _ _, ?_⟩, fun hhead => hzero (Option.some.inj hhead)⟩
    have hcs : cs.all Char.isDigit = true :=
      List.all_eq_true.mpr fun d hd => List.all_eq_true.mp hothers d (hcs.subset hd)
    rw [List.all_cons, hfirst, hcs]
    rfl

end Digits

theorem isWhole_toDigits (n : Nat) : IsWhole (Nat.toDigits 10 n) := by
  by_cases hn : n = 0
  · subst hn
    exact .zero
  · have hnil : ([] : List Char).all Char.isDigit = true := rfl
    have hwhole := (isLeading_toDigits (Nat.pos_of_ne_zero hn)).isWhole_append hnil
    rwa [List.append_nil] at hwhole

theorem isNumber_toString (n : Int) : IsNumber (toString n).toList := by
  have hmagnitude (m : Nat) : IsMagnitude (Nat.toDigits 10 m) := by
    have h : IsMagnitude (Nat.toDigits 10 m ++ [] ++ []) := ⟨isWhole_toDigits m, .none, .none⟩
    rwa [List.append_nil, List.append_nil] at h
  cases n with
  | ofNat m =>
    have htext : (toString (Int.ofNat m)).toList = Nat.toDigits 10 m := Nat.toList_repr
    rw [htext]
    exact .positive (hmagnitude m)
  | negSucc m =>
    have htext : (toString (Int.negSucc m)).toList = '-' :: Nat.toDigits 10 (m + 1) := by
      change ("-" ++ Nat.repr (m + 1)).toList = _
      rw [String.toList_append, Nat.toList_repr]
      rfl
    rw [htext]
    exact .negative (hmagnitude (m + 1))

theorem isNumber_writeInteger {n : Int} {text : String} (h : writeInteger n = .ok text) :
    IsNumber text.toList := by
  unfold writeInteger at h
  split at h
  · cases h
  · obtain rfl := Except.ok.inj h
    exact isNumber_toString n

namespace RealLayout

variable {digits : List Char}

theorem isMagnitude_positional (h : IsLeading digits) (place : Int) :
    IsMagnitude (positional digits place).toList := by
  unfold positional
  split
  · -- The digits stand behind the point and further zeros.
    have htext : ("0." ++ zeros (-place).toNat ++ String.ofList digits).toList =
        ['0'] ++ ('.' :: ((zeros (-place).toNat).toList ++ digits)) ++ [] := by
      simp
    rw [htext]
    refine ⟨.zero, .digits ⟨?_, ?_⟩, .none⟩
    · exact fun hnil => h.isInteger.1 (List.append_eq_nil_iff.mp hnil).2
    · rw [List.all_append, all_isDigit_zeros, h.isInteger.2]
      rfl
  · split
    · have htext : (String.ofList digits ++ zeros (place.toNat - digits.length) ++ ".0").toList =
          digits ++ (zeros (place.toNat - digits.length)).toList ++ ['.', '0'] ++ [] := by
        simp
      rw [htext]
      exact ⟨h.isWhole_append (all_isDigit_zeros _), .digits ⟨by decide, rfl⟩, .none⟩
    · have htext : (String.ofList (digits.take place.toNat) ++ "." ++
          String.ofList (digits.drop place.toNat)).toList =
          digits.take place.toNat ++ ('.' :: digits.drop place.toNat) ++ [] := by
        simp
      rw [htext]
      exact ⟨h.isWhole_take (by omega), .digits (isInteger_drop h.isInteger (by omega)), .none⟩

theorem isExponent_exponentText (layout : RealLayout) (power : Int) :
    IsExponent (layout.exponentText power).toList := by
  have hdigits : IsInteger ((zeros (layout.exponentDigits - (toString power.natAbs).length)).toList
      ++ (toString power.natAbs).toList) := by
    have hinteger : IsInteger (toString power.natAbs).toList := by
      rw [show (toString power.natAbs).toList = Nat.toDigits 10 power.natAbs from Nat.toList_repr]
      exact isInteger_toDigits _
    refine ⟨fun hnil => hinteger.1 (List.append_eq_nil_iff.mp hnil).2, ?_⟩
    rw [List.all_append, all_isDigit_zeros, hinteger.2]
    rfl
  have he : 'e' ∈ ['e', 'E'] := by decide
  unfold exponentText
  by_cases hpower : power < 0
  · rw [if_pos hpower]
    have hsign : ['-'] ∈ [[], ['+'], ['-']] := by decide
    simpa using IsExponent.digits he hsign hdigits
  · rw [if_neg hpower]
    have hsign : ['+'] ∈ [[], ['+'], ['-']] := by decide
    simpa using IsExponent.digits he hsign hdigits

theorem isMagnitude_scientific (h : IsLeading digits) (layout : RealLayout) (power : Int) :
    IsMagnitude (layout.scientific digits power).toList := by
  have hfraction : IsFraction
      (if (digits.drop 1).isEmpty then "" else "." ++ String.ofList (digits.drop 1)).toList := by
    by_cases hempty : (digits.drop 1).isEmpty = true
    · rw [if_pos hempty]
      exact .none
    · rw [if_neg hempty]
      have hlength : 1 < digits.length := by
        simp only [List.isEmpty_iff, List.drop_eq_nil_iff] at hempty
        omega
      have hdigits := IsFraction.digits (isInteger_drop h.isInteger hlength)
      simpa using hdigits
  have hnumber := IsMagnitude.mk (h.isWhole_take Nat.one_pos) hfraction
    (isExponent_exponentText layout power)
  unfold scientific
  simpa using hnumber

theorem isMagnitude_layOut (h : IsLeading digits) (layout : RealLayout) (place : Int) :
    IsMagnitude (layout.layOut digits place).toList := by
  unfold layOut
  split
  · exact isMagnitude_positional h place
  · exact isMagnitude_scientific h layout (place - 1)

theorem isMagnitude_magnitude {b : BinaryParts} (h : b.IsDouble) :
    IsMagnitude (json.magnitude b).toList := by
  unfold magnitude
  by_cases hzero : b.significand = 0
  · rw [if_pos hzero]
    have hfraction : IsFraction ['.', '0'] := .digits ⟨by decide, rfl⟩
    exact .mk .zero hfraction .none
  · rw [if_neg hzero]
    have hunits := h.shortest_fst_pos (Nat.pos_of_ne_zero hzero)
    exact isMagnitude_layOut (isLeading_toDigits hunits).dropTrailingZeros json _

/-- A real number is written as a JSON number if it is finite. -/
theorem isNumber_write {x : Float} (h : x.isFinite = true) : IsNumber (json.write x).toList := by
  rw [← BinaryParts.isSome_ofReal?] at h
  obtain ⟨b, hb⟩ := Option.isSome_iff_exists.mp h
  have hmagnitude := isMagnitude_magnitude (BinaryParts.isDouble_of_ofBits? hb)
  rw [write, hb]
  by_cases hnegative : b.negative = true
  · have htext : ((if b.negative then "-" else "") ++ json.magnitude b).toList =
        '-' :: (json.magnitude b).toList := by
      rw [if_pos hnegative, String.toList_append]
      rfl
    rw [htext]
    exact .negative hmagnitude
  · have htext : ((if b.negative then "-" else "") ++ json.magnitude b).toList =
        (json.magnitude b).toList := by
      rw [if_neg hnegative, String.toList_append]
      rfl
    rw [htext]
    exact .positive hmagnitude

end RealLayout

end TextTemplate
