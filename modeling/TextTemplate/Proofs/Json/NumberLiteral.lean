import TextTemplate.Number.Integer
import TextTemplate.Proofs.Json.Grammar

/-! A test for the numbers in JSON texts. -/

namespace TextTemplate.Json

section Numbers

variable {cs : List Char}

/-- A stretch ends where its test fails. -/
theorem span_append {α : Type} {p : α → Bool} {xs ys : List α} (h : ∀ x ∈ xs, p x = true)
    (hstop : ∀ y ∈ ys.head?, p y = false) :
    (xs ++ ys).takeWhile p = xs ∧ (xs ++ ys).dropWhile p = ys := by
  rw [List.takeWhile_append_of_pos h, List.dropWhile_append_of_pos h]
  cases ys with
  | nil => simp
  | cons y ys =>
    have hy := hstop y rfl
    rw [List.takeWhile_cons_of_neg (by simp [hy]), List.dropWhile_cons_of_neg (by simp [hy])]
    simp

instance : DecidablePred IsInteger :=
  fun cs => inferInstanceAs (Decidable (cs ≠ [] ∧ cs.all Char.isDigit = true))

def isWhole : List Char → Bool
  | [] => false
  | c :: rest => if c = '0' then rest.isEmpty else (c :: rest).all Char.isDigit

def isFraction : List Char → Bool
  | [] => true
  | c :: digits => c == '.' && decide (IsInteger digits)

def isExponent : List Char → Bool
  | [] => true
  | e :: rest => (e == 'e' || e == 'E') && decide (IsInteger (splitSign rest).2)

/-- A point or a digit: what stands between the whole part and the exponent. -/
def isFractionChar (c : Char) : Bool :=
  c == '.' || c.isDigit

def isMagnitude (cs : List Char) : Bool :=
  let rest := cs.dropWhile Char.isDigit
  isWhole (cs.takeWhile Char.isDigit) && isFraction (rest.takeWhile isFractionChar) &&
    isExponent (rest.dropWhile isFractionChar)

def isNumber : List Char → Bool
  | [] => false
  | c :: rest => if c = '-' then isMagnitude rest else isMagnitude (c :: rest)

theorem isWhole_iff : isWhole cs = true ↔ IsWhole cs := by
  cases cs with
  | nil =>
    refine iff_of_false (by simp [isWhole]) ?_
    rintro ⟨⟩
  | cons c rest =>
    rw [isWhole]
    by_cases hzero : c = '0'
    · subst hzero
      rw [if_pos rfl, List.isEmpty_iff]
      constructor
      · rintro rfl
        exact .zero
      · intro h
        cases h with
        | zero => rfl
        | digits _ hne => exact absurd rfl hne
    · rw [if_neg hzero, List.all_cons, Bool.and_eq_true]
      constructor
      · rintro ⟨hc, hrest⟩
        exact .digits hc hzero hrest
      · intro h
        cases h with
        | zero => exact absurd rfl hzero
        | digits hc _ hrest => exact ⟨hc, hrest⟩

theorem isFraction_iff : isFraction cs = true ↔ IsFraction cs := by
  cases cs with
  | nil => exact iff_of_true rfl .none
  | cons c digits =>
    rw [isFraction, Bool.and_eq_true, beq_iff_eq, decide_eq_true_iff]
    constructor
    · rintro ⟨rfl, h⟩
      exact .digits h
    · intro h
      cases h with
      | digits h => exact ⟨rfl, h⟩

theorem splitSign_of_isInteger (h : IsInteger cs) : (splitSign cs).2 = cs := by
  obtain ⟨-, hall⟩ := h
  unfold splitSign
  split
  · simp at hall
  · simp at hall
  · rfl

theorem exists_sign (cs : List Char) :
    ∃ sign ∈ [[], ['+'], ['-']], cs = sign ++ (splitSign cs).2 := by
  unfold splitSign
  split
  · exact ⟨['-'], by decide, rfl⟩
  · exact ⟨['+'], by decide, rfl⟩
  · exact ⟨[], by decide, rfl⟩

theorem isExponent_iff : isExponent cs = true ↔ IsExponent cs := by
  cases cs with
  | nil => exact iff_of_true rfl .none
  | cons e rest =>
    rw [isExponent, Bool.and_eq_true, decide_eq_true_iff]
    constructor
    · rintro ⟨he, h⟩
      obtain ⟨sign, hsign, hrest⟩ := exists_sign rest
      rw [hrest]
      exact .digits (by simpa using he) hsign h
    · intro h
      cases h with
      | @digits _ sign digits he hsign h =>
        refine ⟨by simpa using he, ?_⟩
        obtain rfl | rfl | rfl : sign = [] ∨ sign = ['+'] ∨ sign = ['-'] := by simpa using hsign
        · rwa [List.nil_append, splitSign_of_isInteger h]
        · exact h
        · exact h

theorem head?_isWhole (h : IsWhole cs) : ∃ c ∈ cs.head?, c.isDigit = true := by
  cases h with
  | zero => exact ⟨'0', rfl, rfl⟩
  | digits hfirst => exact ⟨_, rfl, hfirst⟩

theorem forall_isDigit_of_isWhole (h : IsWhole cs) : ∀ c ∈ cs, c.isDigit = true := by
  cases h with
  | zero => exact List.forall_mem_singleton.mpr rfl
  | digits hfirst _ hothers =>
    exact List.forall_mem_cons.mpr ⟨hfirst, List.all_eq_true.mp hothers⟩

theorem forall_of_isFraction (h : IsFraction cs) : ∀ c ∈ cs, isFractionChar c = true := by
  cases h with
  | none => exact List.forall_mem_nil _
  | digits h =>
    refine List.forall_mem_cons.mpr ⟨rfl, fun c hc => ?_⟩
    have hdigit := List.all_eq_true.mp h.2 c hc
    simp [isFractionChar, hdigit]

theorem head?_isExponent (h : IsExponent cs) :
    ∀ c ∈ cs.head?, c = 'e' ∨ c = 'E' := by
  cases h with
  | none => simp
  | digits he => simpa using he

theorem isMagnitude_iff : isMagnitude cs = true ↔ IsMagnitude cs := by
  rw [isMagnitude, Bool.and_eq_true, Bool.and_eq_true, isWhole_iff, isFraction_iff,
    isExponent_iff]
  constructor
  · rintro ⟨⟨hwhole, hfraction⟩, hexponent⟩
    have h := IsMagnitude.mk hwhole hfraction hexponent
    rwa [List.append_assoc, List.takeWhile_append_dropWhile,
      List.takeWhile_append_dropWhile] at h
  · rintro ⟨hwhole, hfraction, hexponent⟩
    rename_i whole fraction exponent
    have hend : ∀ c ∈ exponent.head?, isFractionChar c = false := by
      intro c hc
      obtain rfl | rfl := head?_isExponent hexponent c hc
      · rfl
      · rfl
    have hbehind : ∀ c ∈ (fraction ++ exponent).head?, c.isDigit = false := by
      intro c hc
      cases hfraction with
      | none =>
        have hc := hend c hc
        simp_all [isFractionChar]
      | digits =>
        obtain rfl := Option.some.inj hc
        rfl
    obtain ⟨htake, hdrop⟩ := span_append (forall_isDigit_of_isWhole hwhole) hbehind
    obtain ⟨htake', hdrop'⟩ := span_append (forall_of_isFraction hfraction) hend
    rw [List.append_assoc, htake, hdrop, htake', hdrop']
    exact ⟨⟨hwhole, hfraction⟩, hexponent⟩

theorem IsMagnitude.exists_head (h : IsMagnitude cs) : ∃ c ∈ cs.head?, c.isDigit = true := by
  obtain ⟨hwhole, -, -⟩ := h
  obtain ⟨c, hc, hdigit⟩ := head?_isWhole hwhole
  refine ⟨c, ?_, hdigit⟩
  rw [List.append_assoc, List.head?_append, hc]
  rfl

theorem isNumber_iff : isNumber cs = true ↔ IsNumber cs := by
  cases cs with
  | nil =>
    refine iff_of_false (by simp [isNumber]) ?_
    intro h
    cases h with
    | positive h =>
      obtain ⟨c, hc, -⟩ := h.exists_head
      cases hc
  | cons c rest =>
    rw [isNumber]
    by_cases hminus : c = '-'
    · subst hminus
      rw [if_pos rfl, isMagnitude_iff]
      constructor
      · exact .negative
      · intro h
        cases h with
        | positive h =>
          obtain ⟨c, hc, hdigit⟩ := h.exists_head
          obtain rfl := Option.some.inj hc
          cases hdigit
        | negative h => exact h
    · rw [if_neg hminus, isMagnitude_iff]
      constructor
      · exact .positive
      · intro h
        cases h with
        | positive h => exact h
        | negative => exact absurd rfl hminus

instance : DecidablePred IsNumber :=
  fun _ => decidable_of_iff _ isNumber_iff

end Numbers

end TextTemplate.Json
