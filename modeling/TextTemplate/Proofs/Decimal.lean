import Mathlib.Algebra.Group.Nat.Defs
import TextTemplate.Number.Integer
import TextTemplate.Proofs.Lexeme
import TextTemplate.Proofs.Result

/-! Integers as their ASCII digits. Reading takes every such text that is short enough, for the
number that its digits spell. -/

namespace TextTemplate

/-- The text is an integer that is short enough to be read. -/
def IsDecimal (text : String) : Prop :=
  IsInteger text.toList ∧ text.toList.length ≤ maxIntegerDigits

theorem digit_le_iff {c : Char} : c.isDigit = true ↔ 48 ≤ c.toNat ∧ c.toNat ≤ 57 :=
  Char.isDigit_iff_toNat

theorem decimalDigit?_of_isDigit {c : Char} (h : c.isDigit = true) :
    decimalDigit? c = some (c.toNat - 48) := by
  obtain ⟨hlow, hhigh⟩ := digit_le_iff.mp h
  have hfirst : (decide (48 ≤ c.toNat) && decide (c.toNat < 48 + 10)) = true := by
    simp only [Bool.and_eq_true, decide_eq_true_eq]
    omega
  have hzero : zeroDigits = 48 :: zeroDigits.tail := rfl
  rw [decimalDigit?, hzero, List.find?_cons, hfirst]
  rfl

theorem digitRun?_digits {cs : List Char} (h : IsInteger cs) :
    digitRun? cs = some (cs.map (·.toNat - 48), []) := by
  obtain ⟨hne, hall⟩ := h
  induction cs with
  | nil => exact absurd rfl hne
  | cons c cs ih =>
    simp only [List.all_cons, Bool.and_eq_true] at hall
    have hc := decimalDigit?_of_isDigit hall.1
    cases cs with
    | nil => simp [digitRun?, hc]
    | cons d cs =>
      have hrest := ih (by simp) hall.2
      simp only [List.all_cons, Bool.and_eq_true] at hall
      have hd := decimalDigit?_of_isDigit hall.2.1
      have hunderscore : d ≠ '_' := by
        rintro rfl
        simp at hall
      simp [digitRun?, hc, hd, hunderscore, hrest]

theorem not_isBlank_of_isDigit {c : Char} (h : c.isDigit = true) : isBlank c = false := by
  obtain ⟨hlow, hhigh⟩ := digit_le_iff.mp h
  cases hblank : isBlank c with
  | false => rfl
  | true =>
    simp only [isBlank, inRanges_iff, blankRanges] at hblank
    simp at hblank
    omega

theorem ofDigits_digits (cs : List Char) :
    ofDigits (cs.map (·.toNat - 48)) = Nat.ofDigitChars 10 cs 0 := by
  rw [ofDigits, List.foldl_map, Nat.ofDigitChars_eq_foldl]
  rfl

/-- Integers of ASCII digits are refused for their length only. -/
theorem readInteger_digits {text : String} (h : IsInteger text.toList) :
    readInteger text =
      if maxIntegerDigits < text.toList.length then .error (.tooLongToRead text.toList.length)
      else .ok (Nat.ofDigitChars 10 text.toList 0) := by
  have hrun := digitRun?_digits h
  unfold readInteger
  generalize text.toList = cs at h hrun ⊢
  obtain ⟨hne, hall⟩ := h
  cases cs with
  | nil => exact absurd rfl hne
  | cons c cs =>
    have hc : c.isDigit = true := by simp_all
    have hblank : isIntegerBlank c = false := by simp [isIntegerBlank, not_isBlank_of_isDigit hc]
    have hsign : splitSign (c :: cs) = (false, c :: cs) := by
      unfold splitSign
      split <;> simp_all
    rw [List.dropWhile_cons_of_neg (by simp [hblank]), hsign]
    simp only [hrun, List.length_map, ofDigits_digits]
    rfl

theorem readInteger_decimal {text : String} (h : IsDecimal text) :
    readInteger text = .ok (Nat.ofDigitChars 10 text.toList 0) := by
  rw [readInteger_digits h.1, if_neg (Nat.not_lt.mpr h.2)]

theorem isDecimal_of_readInteger {text : String} {n : Int} (h : IsInteger text.toList)
    (hread : readInteger text = .ok n) : IsDecimal text := by
  rw [readInteger_digits h] at hread
  by_cases hlong : maxIntegerDigits < text.toList.length
  · rw [if_pos hlong] at hread
    cases hread
  · exact ⟨h, Nat.not_lt.mp hlong⟩

theorem ofDigitChars_lt {cs : List Char} (h : cs.all Char.isDigit = true) (init : Nat) :
    Nat.ofDigitChars 10 cs init < 10 ^ cs.length * (init + 1) := by
  induction cs generalizing init with
  | nil => simp
  | cons c cs ih =>
    simp only [List.all_cons, Bool.and_eq_true] at h
    obtain ⟨hlow, hhigh⟩ := digit_le_iff.mp h.1
    have hzero : '0'.toNat = 48 := rfl
    have hdigit : 10 * init + (c.toNat - '0'.toNat) + 1 ≤ 10 * (init + 1) := by omega
    calc Nat.ofDigitChars 10 (c :: cs) init
        = Nat.ofDigitChars 10 cs (10 * init + (c.toNat - '0'.toNat)) := Nat.ofDigitChars_cons
      _ < 10 ^ cs.length * (10 * init + (c.toNat - '0'.toNat) + 1) := ih h.2 _
      _ ≤ 10 ^ cs.length * (10 * (init + 1)) := Nat.mul_le_mul_left _ hdigit
      _ = 10 ^ (c :: cs).length * (init + 1) := by
        rw [List.length_cons, Nat.pow_succ, Nat.mul_assoc]

theorem length_toDigits_ofDigitChars_le {cs : List Char} (h : IsInteger cs) :
    (Nat.toDigits 10 (Nat.ofDigitChars 10 cs 0)).length ≤ cs.length := by
  have hlt := ofDigitChars_lt h.2 0
  rw [Nat.length_toDigits_le_iff (by decide) (List.length_pos_iff.mpr h.1)]
  simpa using hlt

theorem isInteger_toDigits (n : Nat) : IsInteger (Nat.toDigits 10 n) := by
  refine ⟨Nat.toDigits_ne_nil, ?_⟩
  rw [List.all_eq_true]
  intro c hc
  exact Nat.isDigit_of_mem_toDigits (by decide) (by decide) hc

/-- The number has more digits than are ever written. -/
def IsLong (n : Int) : Prop :=
  10 ^ maxIntegerDigits ≤ n.natAbs

theorem isLong_iff {n : Int} : IsLong n ↔ maxIntegerDigits < (toString n.natAbs).length := by
  have hdigits : (toString n.natAbs).length = (Nat.toDigits 10 n.natAbs).length := by
    simp [toString, Nat.repr]
  have hpositive : 0 < maxIntegerDigits := by decide
  have hle := Nat.length_toDigits_le_iff (n := n.natAbs) (b := 10) (by decide) hpositive
  rw [hdigits, IsLong]
  omega

@[simp] theorem failsBy_writeInteger {bad : IntegerFault → Prop} {n : Int} :
    FailsBy bad (writeInteger n) ↔ IsLong n ∧ bad .tooLongToWrite := by
  rw [writeInteger, isLong_iff]
  by_cases hlong : maxIntegerDigits < (toString n.natAbs).length
  · rw [if_pos hlong, failsBy_error]
    exact (and_iff_right hlong).symm
  · rw [if_neg hlong]
    exact iff_of_false (not_failsBy_ok _) fun h => hlong h.1

theorem writeInteger_of_isLong {n : Int} (h : IsLong n) :
    writeInteger n = .error .tooLongToWrite :=
  if_pos (isLong_iff.mp h)

theorem writeInteger_of_not_isLong {n : Int} (h : ¬ IsLong n) : writeInteger n = .ok (toString n) :=
  if_neg fun hlong => h (isLong_iff.mpr hlong)

end TextTemplate
