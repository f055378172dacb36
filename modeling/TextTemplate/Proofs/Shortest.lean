import Mathlib
import TextTemplate.Number.Real

/-! Shortest decimals. Seventeen digits always leave room for a decimal that stands for the number,
and none stands for a number other than zero that is zero itself. -/

namespace TextTemplate

namespace RoundingInterval

theorem lt_pow_decimalLength (n : Nat) : n < 10 ^ decimalLength n := by
  have hpositive : 0 < decimalLength n := List.length_pos_iff.mpr Nat.toDigits_ne_nil
  exact (Nat.length_toDigits_le_iff (by decide) hpositive).mp le_rfl

theorem pow_decimalLength_le {n : Nat} (hn : 0 < n) : 10 ^ (decimalLength n - 1) ≤ n := by
  by_cases hone : decimalLength n ≤ 1
  · rw [Nat.sub_eq_zero_of_le hone]
    exact hn
  · by_contra hlt
    have hshort : decimalLength n ≤ decimalLength n - 1 :=
      (Nat.length_toDigits_le_iff (by decide) (by omega)).mpr (Nat.not_le.mp hlt)
    omega

variable {r : RoundingInterval}

/-- The value is not below a tenth of the power of ten that its decimal point stands at. -/
theorem pow_pointPlace_le (hscale : 0 < r.scale) (hvalue : 0 < r.value) :
    r.scale * 10 ^ (r.pointPlace - 1).toNat ≤ r.value * 10 ^ (1 - r.pointPlace).toNat := by
  unfold pointPlace
  split
  · rename_i hle
    have hquotient : 0 < r.value / r.scale := Nat.div_pos hle hscale
    have hpow := pow_decimalLength_le hquotient
    have hlength : 0 < decimalLength (r.value / r.scale) :=
      List.length_pos_iff.mpr Nat.toDigits_ne_nil
    rw [show ((decimalLength (r.value / r.scale) : Int) - 1).toNat =
        decimalLength (r.value / r.scale) - 1 by omega,
      show (1 - (decimalLength (r.value / r.scale) : Int)).toNat = 0 by omega, pow_zero, mul_one]
    calc r.scale * 10 ^ (decimalLength (r.value / r.scale) - 1)
        ≤ r.scale * (r.value / r.scale) := Nat.mul_le_mul_left _ hpow
      _ ≤ r.value := Nat.mul_div_le _ _
  · have hpow := lt_pow_decimalLength (r.scale / r.value)
    rw [show (1 - (decimalLength (r.scale / r.value) : Int) - 1).toNat = 0 by omega,
      show (1 - (1 - (decimalLength (r.scale / r.value) : Int))).toNat =
        decimalLength (r.scale / r.value) by omega, pow_zero, mul_one]
    exact ((Nat.div_lt_iff_lt_mul hvalue).mp hpow).le.trans_eq (Nat.mul_comm _ _)

section Nearest

variable {exponent : Int} {units : Nat}

/-- What zero units stand for is below the interval. -/
theorem nearest?_pos (hlow : 0 < r.low) (h : r.nearest? exponent = some units) : 0 < units := by
  have hup : 0 < Nat.pow 10 (-exponent).toNat := Nat.pow_pos (by decide)
  have hpositive := Nat.mul_pos hlow hup
  by_contra hzero
  obtain rfl : units = 0 := by omega
  unfold nearest? at h
  grind

/-- An interval that is wider than a unit has a multiple of the unit in it. -/
theorem exists_nearest? (h : r.scale * 10 ^ exponent.toNat <
    (r.high - r.low) * 10 ^ (-exponent).toNat) : ∃ units, r.nearest? exponent = some units := by
  have hwide : r.scale * Nat.pow 10 exponent.toNat <
      r.high * Nat.pow 10 (-exponent).toNat - r.low * Nat.pow 10 (-exponent).toNat := by
    rw [← Nat.sub_mul]
    exact h
  unfold nearest?
  generalize Nat.pow 10 (-exponent).toNat = up at hwide ⊢
  generalize r.scale * Nat.pow 10 exponent.toNat = unit at hwide ⊢
  -- Neighbouring multiples are one unit apart, so that not both can be outside.
  have hneighbours : (r.value * up / unit + 1) * unit = r.value * up / unit * unit + unit :=
    Nat.succ_mul _ _
  dsimp only
  generalize r.value * up / unit = below at hneighbours ⊢
  cases hclosed : r.closed with
  | true =>
    have hin : r.low * up ≤ below * unit ∨ (below + 1) * unit ≤ r.high * up := by omega
    simp only [if_true]
    split_ifs with hboth hcloser hbelow habove
    · exact ⟨below, rfl⟩
    · exact ⟨below + 1, rfl⟩
    · exact ⟨below, rfl⟩
    · exact ⟨below + 1, rfl⟩
    · exact absurd hin (not_or.mpr ⟨hbelow, habove⟩)
  | false =>
    have hin : r.low * up < below * unit ∨ (below + 1) * unit < r.high * up := by omega
    simp only [Bool.false_eq_true, if_false]
    split_ifs with hboth hcloser hbelow habove
    · exact ⟨below, rfl⟩
    · exact ⟨below + 1, rfl⟩
    · exact ⟨below, rfl⟩
    · exact ⟨below + 1, rfl⟩
    · exact absurd hin (not_or.mpr ⟨hbelow, habove⟩)

end Nearest

/-- Wherever the interval is not too narrow for its value, the search finds a decimal. -/
theorem shortest_fst_pos (hscale : 0 < r.scale) (hlow : 0 < r.low) (hvalue : 0 < r.value)
    (hwide : r.value < (r.high - r.low) * 10 ^ 16) : 0 < r.shortest.1 := by
  have hpoint := pow_pointPlace_le hscale hvalue
  have hunit : r.scale * 10 ^ (r.pointPlace - 17).toNat <
      (r.high - r.low) * 10 ^ (-(r.pointPlace - 17)).toNat := by
    -- Both sides are seen under the powers of ten that the point and the last digit stand at.
    have hpowers : 10 ^ (r.pointPlace - 1).toNat * 10 ^ (-(r.pointPlace - 17)).toNat =
        10 ^ (1 - r.pointPlace).toNat * 10 ^ (r.pointPlace - 17).toNat * 10 ^ 16 := by
      rw [← pow_add, ← pow_add, ← pow_add]
      congr 1
      omega
    have hcommon : 0 < 10 ^ (1 - r.pointPlace).toNat * 10 ^ 16 := by positivity
    refine Nat.lt_of_mul_lt_mul_right (a := 10 ^ (1 - r.pointPlace).toNat * 10 ^ 16) ?_
    calc r.scale * 10 ^ (r.pointPlace - 17).toNat * (10 ^ (1 - r.pointPlace).toNat * 10 ^ 16)
        = r.scale * 10 ^ (r.pointPlace - 1).toNat * 10 ^ (-(r.pointPlace - 17)).toNat := by
          rw [mul_assoc r.scale, mul_assoc r.scale, hpowers]
          ring
      _ ≤ r.value * 10 ^ (1 - r.pointPlace).toNat * 10 ^ (-(r.pointPlace - 17)).toNat :=
          Nat.mul_le_mul_right _ hpoint
      _ < (r.high - r.low) * 10 ^ 16 * 10 ^ (1 - r.pointPlace).toNat *
            10 ^ (-(r.pointPlace - 17)).toNat := by
          gcongr
      _ = (r.high - r.low) * 10 ^ (-(r.pointPlace - 17)).toNat *
            (10 ^ (1 - r.pointPlace).toNat * 10 ^ 16) := by ring
  obtain ⟨units, hunits⟩ := exists_nearest? hunit
  have hfound : ((List.range' 1 mostDigits).findSome? fun digits =>
      (r.nearest? (r.pointPlace - (digits : Nat))).map fun units =>
        (units, r.pointPlace - (digits : Nat))).isSome = true := by
    rw [List.findSome?_isSome_iff]
    refine ⟨17, by decide, ?_⟩
    simp [hunits]
  obtain ⟨decimal, hdecimal⟩ := Option.isSome_iff_exists.mp hfound
  obtain ⟨digits, -, hattempt⟩ := List.exists_of_findSome?_eq_some hdecimal
  obtain ⟨units, hunits, rfl⟩ := Option.map_eq_some_iff.mp hattempt
  have hshortest : r.shortest = (units, r.pointPlace - (digits : Nat)) := by
    unfold shortest
    dsimp only
    rw [hdecimal]
    rfl
  rw [hshortest]
  exact nearest?_pos hlow hunits

end RoundingInterval

open Float.Model (Format UnpackedFloat)

namespace BinaryParts

variable {b : BinaryParts} {bits : Nat}

/-- The parts are those of a number of double precision. -/
structure IsDouble (b : BinaryParts) : Prop where
  significand_lt : b.significand < 2 ^ 53
  significand_of_narrow : b.narrow = true → b.significand = 2 ^ 52

theorem isDouble_of_ofBits? (h : ofBits? bits = some b) : IsDouble b := by
  unfold ofBits? at h
  dsimp only at h
  have hfraction : bits % Nat.pow 2 52 < 2 ^ 52 := Nat.mod_lt _ (Nat.pow_pos (by decide))
  split_ifs at h with hexponent hzero
  · obtain rfl := Option.some.inj h
    exact ⟨by dsimp only; omega, fun hnarrow => by cases hnarrow⟩
  · obtain rfl := Option.some.inj h
    refine ⟨?_, ?_⟩
    · have hhidden : Nat.pow 2 52 = 2 ^ 52 := rfl
      dsimp only
      omega
    · intro hnarrow
      simp only [Bool.and_eq_true, decide_eq_true_eq] at hnarrow
      rw [hnarrow.1]
      rfl

/-- The search for the shortest decimal of a number other than zero finds one. -/
theorem IsDouble.shortest_fst_pos (h : IsDouble b) (hb : 0 < b.significand) :
    0 < (RoundingInterval.ofBinary b.significand b.exponent b.narrow).shortest.1 := by
  obtain ⟨hlt, hnarrow⟩ := h
  have hup : 0 < Nat.pow 2 (b.exponent - 2).toNat := Nat.pow_pos (by decide)
  refine RoundingInterval.shortest_fst_pos (Nat.pow_pos (by decide)) ?_ ?_ ?_
  · refine Nat.mul_pos ?_ hup
    split <;> omega
  · exact Nat.mul_pos (by omega) hup
  · rw [RoundingInterval.ofBinary]
    dsimp only
    rw [← Nat.sub_mul, mul_right_comm _ _ (10 ^ 16)]
    refine Nat.mul_lt_mul_of_pos_right ?_ hup
    cases hnarrowness : b.narrow with
    | true =>
      have hleast := hnarrow hnarrowness
      simp only [if_true]
      omega
    | false =>
      simp only [Bool.false_eq_true, if_false]
      omega

theorem isFinite_eq (x : Float) : x.isFinite = !decide ((x.toBits.toNat >>> 52) % 2048 = 2047) := by
  have hexponent : (@UnpackedFloat.unpackExponent Format.binary64
      x.toBits.toBitVec).toNat = (x.toBits.toNat >>> 52) % 2048 := by
    unfold UnpackedFloat.unpackExponent
    rw [BitVec.toNat_cast, BitVec.extractLsb_toNat]
    rfl
  have hgreatest : @UnpackedFloat.unpackExponent Format.binary64 x.toBits.toBitVec =
      -1#11 ↔ (x.toBits.toNat >>> 52) % 2048 = 2047 := by
    rw [← BitVec.toNat_inj, hexponent]
    rfl
  change (UnpackedFloat.unpack Format.binary64 x.toBits.toBitVec).isFinite = _
  unfold UnpackedFloat.unpack
  dsimp only
  by_cases h : (x.toBits.toNat >>> 52) % 2048 = 2047
  · rw [if_pos (hgreatest.mpr h)]
    split <;> simp [UnpackedFloat.isFinite, h]
  · rw [if_neg (hgreatest.not.mpr h)]
    split
    · split <;> simp [UnpackedFloat.isFinite, h]
    · simp [UnpackedFloat.isFinite, h]

theorem isSome_ofReal? (x : Float) : (ofReal? x).isSome = x.isFinite := by
  rw [isFinite_eq, ofReal?, ofBits?]
  by_cases h : (x.toBits.toNat >>> 52) % 2048 = 2047
  · simp [h]
  · rw [if_neg h]
    split <;> simp [h]

end BinaryParts

end TextTemplate
