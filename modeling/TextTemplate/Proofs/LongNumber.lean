import TextTemplate.Formatter.Registry
import TextTemplate.Proofs.Meaning
import TextTemplate.Proofs.Result
import TextTemplate.Proofs.Source.Spelling

/-! Integers that are too long to be read or written. Paths of a template read them as indexes, and
the formatters that every registry starts from write them; apart from that, paths and formatters
give a result or report a fault. -/

namespace TextTemplate

namespace FormatFailure

/-- What a formatter must not end with. -/
def IsBad : FormatFailure → Prop
  | fault _ => False
  | integer _ | crash _ => True

@[simp] theorem not_isBad_fault (f : FormatFault) : ¬ IsBad (.fault f) := id

@[simp] theorem isBad_integer (f : IntegerFault) : IsBad (.integer f) := trivial

@[simp] theorem isBad_crash (reason : String) : IsBad (.crash reason) := trivial

end FormatFailure

/-- Literals of a compiled template are short enough to be written. -/
theorem Literal.WellFormed.exists_text {l : Literal} (h : l.WellFormed) :
    ∃ text, l.toText = .ok text := by
  cases l with
  | text s => exact ⟨s, rfl⟩
  | integer n =>
    obtain ⟨hpositive, hlength⟩ := h
    have hdigits := (Nat.length_toDigits_le_iff (n := n.toNat) (b := 10) (by decide)
      (by decide)).mp hlength
    have hshort : ¬ maxIntegerDigits < (toString n.natAbs).length := by
      rw [← isLong_iff, IsLong]
      omega
    refine ⟨toString n, ?_⟩
    rw [toText, writeInteger, if_neg hshort]
    rfl

theorem Literal.WellFormed.not_failsBy {bad : FormatFailure → Prop} {l : Literal}
    (h : l.WellFormed) : ¬ FailsBy bad l.toText := by
  obtain ⟨text, htext⟩ := h.exists_text
  rw [htext]
  exact not_failsBy_ok text

namespace Value

def IsLong (v : Value) : Prop :=
  ∃ n, v = integer n ∧ TextTemplate.IsLong n

/-- A long integer stands somewhere in the value. -/
inductive HoldsLong : Value → Prop
  | self {v : Value} (h : v.IsLong) : HoldsLong v
  | item {items : List Value} {v : Value} (hmem : v ∈ items) (h : HoldsLong v) :
      HoldsLong (sequence items)
  | field {fields : List (String × Value)} {field : String × Value} (hmem : field ∈ fields)
      (h : HoldsLong field.2) : HoldsLong (record fields)

theorem failsBy_toText {v : Value} : FailsBy FormatFailure.IsBad v.toText ↔ v.IsLong := by
  cases v with
  | scalar a => cases a <;> simp [toText, Scalar.toText, IsLong, integer]
  | sequence | record | absent => simp [toText, IsLong, integer]

theorem holdsLong_scalar {a : Scalar} : HoldsLong (scalar a) ↔ IsLong (scalar a) := by
  constructor
  · intro h
    cases h with
    | self h => exact h
  · exact .self

theorem holdsLong_sequence {items : List Value} :
    HoldsLong (sequence items) ↔ ∃ v ∈ items, v.HoldsLong := by
  constructor
  · intro h
    cases h with
    | self h => simp [IsLong, integer] at h
    | item hmem h => exact ⟨_, hmem, h⟩
  · rintro ⟨v, hmem, h⟩
    exact .item hmem h

theorem holdsLong_record {fields : List (String × Value)} :
    HoldsLong (record fields) ↔ ∃ field ∈ fields, field.2.HoldsLong := by
  constructor
  · intro h
    cases h with
    | self h => simp [IsLong, integer] at h
    | field hmem h => exact ⟨_, hmem, h⟩
  · rintro ⟨field, hmem, h⟩
    exact .field hmem h

theorem not_holdsLong_absent : ¬ HoldsLong absent := by
  intro h
  cases h with
  | self h => simp [IsLong, integer] at h

mutual

theorem failsBy_toJson (v : Value) : FailsBy (fun _ => True) v.toJson ↔ v.HoldsLong := by
  cases v with
  | scalar a =>
    rw [holdsLong_scalar]
    cases a <;> simp [toJson, jsonScalar, IsLong, integer]
  | sequence items =>
    rw [toJson, failsBy_bind_pure, failsBy_itemsToJson items, holdsLong_sequence]
  | record fields =>
    rw [toJson, failsBy_bind_pure, failsBy_fieldsToJson fields, holdsLong_record]
  | absent => simp [toJson, not_holdsLong_absent]

theorem failsBy_itemsToJson (items : List Value) :
    FailsBy (fun _ => True) (itemsToJson items) ↔ ∃ v ∈ items, v.HoldsLong := by
  cases items with
  | nil => simp [itemsToJson]
  | cons v items =>
    rw [itemsToJson, failsBy_both, failsBy_toJson v, failsBy_itemsToJson items]
    simp only [List.mem_cons, exists_eq_or_imp]

theorem failsBy_fieldsToJson (fields : List (String × Value)) :
    FailsBy (fun _ => True) (fieldsToJson fields) ↔ ∃ field ∈ fields, field.2.HoldsLong := by
  cases fields with
  | nil => simp [fieldsToJson]
  | cons field fields =>
    obtain ⟨name, v⟩ := field
    rw [fieldsToJson, failsBy_both, failsBy_toJson v, failsBy_fieldsToJson fields]
    simp only [List.mem_cons, exists_eq_or_imp]

end

end Value

namespace Builtin

/-- The formatter comes to write a long integer of the value. -/
def WritesLong (b : Builtin) (v : Value) : Prop :=
  match b with
  | json => v.HoldsLong
  | join => ∃ before item behind, v = .sequence (before ++ item :: behind) ∧
      (∀ w ∈ before, ∃ text, w.toText = .ok text) ∧ item.IsLong
  | pluralize => False
  | _ => v.IsLong

theorem failsBy_lengthText {v : Value} :
    FailsBy FormatFailure.IsBad (lengthText v) ↔ v.IsLong := by
  cases v with
  | scalar a => rw [lengthText, failsBy_bind_pure, Value.failsBy_toText] <;> simp
  | sequence | record | absent => simp [lengthText, Value.IsLong, Value.integer]

theorem failsBy_fallbackText {v : Value} {default : Literal} (h : default.WellFormed) :
    FailsBy FormatFailure.IsBad (fallbackText v default) ↔ v.IsLong := by
  have htruthy : v.IsLong → v.isTruthy = true := by
    rintro ⟨n, rfl, -⟩
    rfl
  rw [fallbackText]
  by_cases hv : v.isTruthy = true
  · rw [if_pos hv, failsBy_bind, Value.failsBy_toText]
    refine or_iff_left ?_
    rintro ⟨text, -, hfails⟩
    by_cases htext : text = ""
    · rw [if_pos htext] at hfails
      exact h.not_failsBy hfails
    · rw [if_neg htext] at hfails
      exact not_failsBy_ok _ hfails
  · rw [if_neg hv]
    exact iff_of_false h.not_failsBy fun hlong => hv (htruthy hlong)

theorem failsBy_joinText {v : Value} {separator : Literal} (h : separator.WellFormed) :
    FailsBy FormatFailure.IsBad (joinText v separator) ↔ join.WritesLong v := by
  cases v with
  | scalar | record | absent => simp [joinText, WritesLong]
  | sequence items =>
    obtain ⟨mark, hmark⟩ := h.exists_text
    have hjoin : joinText (.sequence items) separator =
        items.mapM Value.toText >>= fun texts => pure (String.intercalate mark texts) := by
      rw [joinText, hmark]
      rfl
    rw [hjoin, failsBy_bind_pure, failsBy_mapM]
    simp only [WritesLong, Value.failsBy_toText, Value.sequence.injEq]

theorem not_failsBy_pluralText {v : Value} {singular plural : Literal}
    (h : singular.WellFormed) (h' : plural.WellFormed) :
    ¬ FailsBy FormatFailure.IsBad (pluralText v singular plural) := by
  have hsingular : ¬ FailsBy FormatFailure.IsBad (isSingular v) := by
    unfold isSingular
    split <;> simp
  rw [pluralText, failsBy_bind, or_iff_right hsingular]
  rintro ⟨b, -, hfails⟩
  cases b with
  | true => exact h.not_failsBy hfails
  | false => exact h'.not_failsBy hfails

theorem length_le_of_signature {b : Builtin} {count : Nat}
    (h : b.signature.fault? count = none) : count ≤ b.signature.optional := by
  have hrequired : b.signature.required = [] := by cases b <;> rfl
  have hvariadic : b.signature.variadic = false := by cases b <;> rfl
  simpa [Signature.fault?, hrequired, hvariadic] using h

/-- With arguments that its signature takes, a formatter breaks down only on a long integer. -/
theorem failsBy_textOf {b : Builtin} {v : Value} {arguments : List Literal}
    (hcount : b.signature.fault? arguments.length = none)
    (harguments : ∀ l ∈ arguments, l.WellFormed) :
    FailsBy FormatFailure.IsBad (b.textOf v arguments) ↔ b.WritesLong v := by
  have hlength := length_le_of_signature hcount
  have hdefault (s : String) : (Literal.text s).WellFormed := trivial
  cases b with
  | plain =>
    obtain rfl := List.length_eq_zero_iff.mp (Nat.le_zero.mp hlength)
    exact Value.failsBy_toText
  | html | htmlAttribute | urlParameter | upper | lower | trim =>
    obtain rfl := List.length_eq_zero_iff.mp (Nat.le_zero.mp hlength)
    exact failsBy_map.trans Value.failsBy_toText
  | json =>
    obtain rfl := List.length_eq_zero_iff.mp (Nat.le_zero.mp hlength)
    exact failsBy_mapError.trans (Value.failsBy_toJson v)
  | length =>
    obtain rfl := List.length_eq_zero_iff.mp (Nat.le_zero.mp hlength)
    exact failsBy_lengthText
  | fallback =>
    match arguments with
    | [] => exact failsBy_fallbackText (hdefault "")
    | [default] => exact failsBy_fallbackText (harguments default (by simp))
    | _ :: _ :: _ => simp [signature] at hlength
  | join =>
    match arguments with
    | [] => exact failsBy_joinText (hdefault ", ")
    | [separator] => exact failsBy_joinText (harguments separator (by simp))
    | _ :: _ :: _ => simp [signature] at hlength
  | pluralize =>
    match arguments with
    | [] => exact iff_of_false (not_failsBy_pluralText (hdefault "") (hdefault "s")) id
    | [singular] =>
      have hsingular := harguments singular (by simp)
      exact iff_of_false (not_failsBy_pluralText hsingular (hdefault "s")) id
    | [singular, plural] =>
      have hsingular := harguments singular (by simp)
      have hplural := harguments plural (by simp)
      exact iff_of_false (not_failsBy_pluralText hsingular hplural) id
    | _ :: _ :: _ :: _ => simp [signature] at hlength

end Builtin

/-- What resolving a path must not end with. -/
def ResolveError.IsBad : ResolveError → Prop
  | path _ => False
  | integer _ => True

section Segments

theorem isDigitLike_of_isDigit {c : Char} (h : c.isDigit = true) : isDigitLike c = true := by
  simp [isDigitLike, decimalDigit?_of_isDigit h]

theorem not_isDigitLike_of_isWordStart {c : Char} (h : isWordStart c = true) :
    isDigitLike c = false := by
  have hcode := isWordStart_iff.mp h
  have hstarts : ∀ start ∈ zeroDigits, start = 48 ∨ 122 < start := by decide
  have hranges : ∀ range ∈ otherDigitRanges, 122 < range.1 := by decide
  have hdecimal : decimalDigit? c = none := by
    rw [decimalDigit?, Option.map_eq_none_iff, List.find?_eq_none]
    intro start hstart
    have hplace := hstarts start hstart
    simp only [Bool.and_eq_true, decide_eq_true_eq]
    omega
  have hother : inRanges otherDigitRanges c.toNat = false := by
    rw [Bool.eq_false_iff]
    intro hin
    obtain ⟨range, hmem, hlow, -⟩ := inRanges_iff.mp hin
    have habove := hranges range hmem
    omega
  rw [isDigitLike, hdecimal, hother]
  rfl

theorem isIndexText_iff {segment : String} (h : IsSegment segment) :
    isIndexText segment = true ↔ IsInteger segment.toList := by
  rw [isIndexText, Bool.and_eq_true, List.all_eq_true]
  rcases h with ⟨⟨first, more, parts, hsegment, hfirst, -, -⟩, -⟩ | hinteger
  · have hlike := not_isDigitLike_of_isWordStart hfirst
    have hdigit : first.isDigit = false := by
      rw [Bool.eq_false_iff]
      intro hdigit
      rw [isDigitLike_of_isDigit hdigit] at hlike
      cases hlike
    refine iff_of_false ?_ ?_
    · rintro ⟨-, hall⟩
      have hdigits := hall first (by simp [hsegment])
      simp [hlike] at hdigits
    · rintro ⟨-, hall⟩
      simp [hsegment, hdigit] at hall
  · refine iff_of_true ⟨?_, ?_⟩ hinteger
    · have hne := hinteger.1
      simpa using hne
    · intro c hc
      exact isDigitLike_of_isDigit (List.all_eq_true.mp hinteger.2 c hc)

end Segments

namespace Value

/-- The segments lead to a sequence that is asked for an index of too many digits. -/
inductive MeetsLongIndex : Value → List String → Prop
  | here {items : List Value} {segment : String} {rest : List String}
      (hindex : IsInteger segment.toList) (hlong : maxIntegerDigits < segment.toList.length) :
      MeetsLongIndex (sequence items) (segment :: rest)
  | later {v next : Value} {segment resolved : String} {rest : List String}
      (hstep : v.step segment resolved = .ok next) (h : MeetsLongIndex next rest) :
      MeetsLongIndex v (segment :: rest)

theorem failsBy_step {v : Value} {segment resolved : String} (h : IsSegment segment) :
    FailsBy ResolveError.IsBad (v.step segment resolved) ↔
      (∃ items, v = .sequence items) ∧ IsInteger segment.toList ∧
        maxIntegerDigits < segment.toList.length := by
  cases v with
  | scalar | absent => simp [step, ResolveError.IsBad]
  | record fields =>
    cases hfield : NameMap.get? fields segment <;> simp [step, hfield, ResolveError.IsBad]
  | sequence items =>
    by_cases hindex : IsInteger segment.toList
    · have htext := (isIndexText_iff h).mpr hindex
      have hread := readInteger_digits hindex
      rw [step, if_pos htext, failsBy_bind, failsBy_mapError, hread]
      have hitem (index : Int) : ¬ FailsBy ResolveError.IsBad
          (((sequence items).item? index).elim
            (.error (.path ⟨segment, resolved, .outOfRange segment items.length⟩)) .ok) := by
        cases (sequence items).item? index <;> simp [ResolveError.IsBad]
      by_cases hlong : maxIntegerDigits < segment.toList.length
      · rw [if_pos hlong, failsBy_error]
        simp [hindex, hlong, ResolveError.IsBad]
      · rw [if_neg hlong]
        refine iff_of_false ?_ fun hmeets => hlong hmeets.2.2
        rintro (hfails | ⟨index, -, hfails⟩)
        · exact not_failsBy_ok _ hfails
        · exact hitem index hfails
    · have htext : isIndexText segment = false := by
        simpa using mt (isIndexText_iff h).mp hindex
      simp [step, htext, hindex, ResolveError.IsBad]

/-- The text that leads to a value counts only for the fault. -/
theorem step_eq_ok_congr {v next : Value} {segment resolved resolved' : String}
    (h : v.step segment resolved = .ok next) : v.step segment resolved' = .ok next := by
  cases v with
  | scalar | absent => cases h
  | record fields =>
    simp only [step] at h ⊢
    cases hfield : NameMap.get? fields segment with
    | none => simp [hfield] at h
    | some v => simpa [hfield] using h
  | sequence items =>
    by_cases htext : isIndexText segment = true
    · cases hread : readInteger segment with
      | error fault =>
        rw [step, if_pos htext, hread] at h
        cases h
      | ok index =>
        have hstep (resolved : String) : (sequence items).step segment resolved =
            ((sequence items).item? index).elim
              (.error (.path ⟨segment, resolved, .outOfRange segment items.length⟩)) .ok := by
          rw [step, if_pos htext, hread]
          rfl
        rw [hstep] at h ⊢
        cases hitem : (sequence items).item? index with
        | none => simp [hitem] at h
        | some v => simpa [hitem] using h
    · simp [step, htext] at h

theorem failsBy_steps {v : Value} {resolved : String} {segments : List String}
    (h : ∀ segment ∈ segments, IsSegment segment) :
    FailsBy ResolveError.IsBad (v.steps resolved segments) ↔ v.MeetsLongIndex segments := by
  induction segments generalizing v resolved with
  | nil =>
    refine iff_of_false (not_failsBy_ok v) ?_
    rintro ⟨⟩
  | cons segment rest ih =>
    obtain ⟨hsegment, hrest⟩ := List.forall_mem_cons.mp h
    rw [steps, failsBy_bind, failsBy_step hsegment]
    constructor
    · rintro (⟨⟨items, rfl⟩, hindex, hlong⟩ | ⟨next, hstep, hfails⟩)
      · exact .here hindex hlong
      · exact .later hstep ((ih hrest).mp hfails)
    · intro hmeets
      cases hmeets with
      | here hindex hlong => exact .inl ⟨⟨_, rfl⟩, hindex, hlong⟩
      | later hstep hmeets => exact .inr ⟨_, step_eq_ok_congr hstep, (ih hrest).mpr hmeets⟩

end Value

end TextTemplate
