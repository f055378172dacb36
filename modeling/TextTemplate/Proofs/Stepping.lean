import TextTemplate.Proofs.LongNumber

/-! Following a path. Every segment leads from one value to the next, by a field of a record or by
a position in a sequence, and resolving gets as far as the segments lead. -/

namespace TextTemplate

/-- A segment that is not empty, and that is short ASCII digits if it looks like a number. -/
structure IsPlainSegment (segment : String) : Prop where
  ne_empty : segment ≠ ""
  isDecimal : isIndexText segment = true → IsDecimal segment

theorem IsPlainSegment.isIndexText_iff {segment : String} (h : IsPlainSegment segment) :
    isIndexText segment = true ↔ IsInteger segment.toList := by
  constructor
  · intro htext
    exact (h.isDecimal htext).1
  · intro hinteger
    exact (TextTemplate.isIndexText_iff (.inr hinteger)).mpr hinteger

namespace Value

/-- Where a segment leads: to a field, whatever it holds, or to the item at a position. -/
inductive StepsTo : Value → String → Value → Prop
  | field {fields : List (String × Value)} {name : String} {v : Value}
      (h : NameMap.get? fields name = some v) : StepsTo (record fields) name v
  | item {items : List Value} {segment : String} {v : Value} (hdigits : IsInteger segment.toList)
      (h : items[Nat.ofDigitChars 10 segment.toList 0]? = some v) :
      StepsTo (sequence items) segment v

/-- Why a segment leads nowhere. -/
inductive Refuses : Value → String → StepFault → Prop
  | noField {fields : List (String × Value)} {name : String}
      (h : NameMap.get? fields name = none) : Refuses (record fields) name (.noField name)
  | noIndex {items : List Value} {segment : String} (h : ¬ IsInteger segment.toList) :
      Refuses (sequence items) segment (.noIndex segment)
  | outOfRange {items : List Value} {segment : String} (hdigits : IsInteger segment.toList)
      (h : items.length ≤ Nat.ofDigitChars 10 segment.toList 0) :
      Refuses (sequence items) segment (.outOfRange segment items.length)
  | onScalar {a : Scalar} {segment : String} : Refuses (scalar a) segment (.onScalar segment)
  | onAbsent {segment : String} : Refuses absent segment (.onAbsent segment)

inductive Leads : Value → List String → Value → Prop
  | here {v : Value} : Leads v [] v
  | further {v w u : Value} {segment : String} {rest : List String} (hstep : v.StepsTo segment w)
      (hrest : Leads w rest u) : Leads v (segment :: rest) u

/-- The segment leads nowhere, and those before it lead up to it. -/
def FailsAt (v : Value) (segments before : List String) (segment : String) (fault : StepFault) :
    Prop :=
  ∃ behind w, segments = before ++ segment :: behind ∧ v.Leads before w ∧
    (∀ u, ¬ w.StepsTo segment u) ∧ w.Refuses segment fault

section Steps

variable {v w : Value} {segment resolved : String} {segments : List String}

theorem Refuses.not_stepsTo {fault : StepFault} (h : v.Refuses segment fault) (w : Value) :
    ¬ v.StepsTo segment w := by
  intro hstep
  cases hstep with
  | field hfield =>
    cases h with
    | noField hnone => simp [hnone] at hfield
  | item hdigits hitem =>
    cases h with
    | noIndex hnot => exact hnot hdigits
    | outOfRange _ hlength => simp [List.getElem?_eq_none hlength] at hitem

theorem item?_natCast (items : List Value) (i : Nat) : (sequence items).item? i = items[i]? := by
  have hnonneg : ¬ (i : Int) < 0 := Int.not_lt.mpr (Int.natCast_nonneg i)
  rw [item?, if_neg hnonneg, Int.toNat_natCast]

theorem step_sequence_of_digits {items : List Value} (hsegment : IsPlainSegment segment)
    (hdigits : IsInteger segment.toList) (resolved : String) :
    (sequence items).step segment resolved =
      items[Nat.ofDigitChars 10 segment.toList 0]?.elim
        (.error (.path ⟨segment, resolved, .outOfRange segment items.length⟩)) .ok := by
  have htext := hsegment.isIndexText_iff.mpr hdigits
  have hread := readInteger_decimal (hsegment.isDecimal htext)
  rw [step, if_pos htext, hread, ← item?_natCast]
  rfl

theorem step_eq_of_stepsTo (hsegment : IsPlainSegment segment) (h : v.StepsTo segment w)
    (resolved : String) : v.step segment resolved = .ok w := by
  cases h with
  | field hfield => simp [step, hfield]
  | item hdigits hitem => simp [step_sequence_of_digits hsegment hdigits, hitem]

theorem step_eq_of_refuses (hsegment : IsPlainSegment segment) {fault : StepFault}
    (h : v.Refuses segment fault) (resolved : String) :
    v.step segment resolved = .error (.path ⟨segment, resolved, fault⟩) := by
  cases h with
  | noField hnone => simp [step, hnone]
  | noIndex hnot =>
    have htext := mt hsegment.isIndexText_iff.mp hnot
    simp [step, htext]
  | outOfRange hdigits hlength =>
    have hitem := List.getElem?_eq_none hlength
    simp [step_sequence_of_digits hsegment hdigits, hitem]
  | onScalar => rfl
  | onAbsent => rfl

theorem stepsTo_or_refuses (v : Value) (segment : String) :
    (∃ w, v.StepsTo segment w) ∨ ∃ fault, v.Refuses segment fault := by
  cases v with
  | scalar a => exact .inr ⟨_, .onScalar⟩
  | absent => exact .inr ⟨_, .onAbsent⟩
  | record fields =>
    cases h : NameMap.get? fields segment with
    | none => exact .inr ⟨_, .noField h⟩
    | some w => exact .inl ⟨w, .field h⟩
  | sequence items =>
    by_cases hdigits : IsInteger segment.toList
    · cases h : items[Nat.ofDigitChars 10 segment.toList 0]? with
      | none => exact .inr ⟨_, .outOfRange hdigits (List.getElem?_eq_none_iff.mp h)⟩
      | some w => exact .inl ⟨w, .item hdigits h⟩
    · exact .inr ⟨_, .noIndex hdigits⟩

theorem steps_append (v : Value) (resolved : String) (segments more : List String) :
    v.steps resolved (segments ++ more) =
      v.steps resolved segments >>= fun w =>
        w.steps (segments.foldl extendText resolved) more := by
  induction segments generalizing v resolved with
  | nil => rfl
  | cons segment segments ih =>
    rw [List.cons_append, steps, steps, bind_assoc]
    congr 1
    funext next
    exact ih next (extendText resolved segment)

/-- The text of a path that begins somewhere is its parts with dots between them. -/
theorem foldl_extendText (h : resolved ≠ "") (segments : List String) :
    segments.foldl extendText resolved = String.intercalate "." (resolved :: segments) := by
  induction segments generalizing resolved with
  | nil => rfl
  | cons segment segments ih =>
    have hextended : extendText resolved segment = resolved ++ "." ++ segment := if_neg h
    have hne : resolved ++ "." ++ segment ≠ "" := by simp
    rw [List.foldl_cons, hextended, ih hne]
    rfl

theorem leads_or_failsAt (v : Value) (segments : List String) :
    (∃ w, v.Leads segments w) ∨
      ∃ before segment fault, v.FailsAt segments before segment fault := by
  induction segments generalizing v with
  | nil => exact .inl ⟨v, .here⟩
  | cons segment rest ih =>
    rcases v.stepsTo_or_refuses segment with ⟨w, hstep⟩ | ⟨fault, hrefuses⟩
    · rcases ih w with ⟨u, hleads⟩ | ⟨before, other, fault, behind, u, rfl, hbefore, hfault⟩
      · exact .inl ⟨u, .further hstep hleads⟩
      · exact .inr ⟨segment :: before, other, fault, behind, u, rfl, .further hstep hbefore, hfault⟩
    · exact .inr ⟨[], segment, fault, rest, v, rfl, .here, hrefuses.not_stepsTo, hrefuses⟩

theorem steps_eq_of_leads (hsegments : ∀ segment ∈ segments, IsPlainSegment segment)
    (h : v.Leads segments w) (resolved : String) : v.steps resolved segments = .ok w := by
  induction h generalizing resolved with
  | here => rfl
  | further hstep hrest ih =>
    obtain ⟨hsegment, hsegments⟩ := List.forall_mem_cons.mp hsegments
    rw [steps, step_eq_of_stepsTo hsegment hstep resolved]
    exact ih hsegments _

theorem steps_eq_of_failsAt (hsegments : ∀ segment ∈ segments, IsPlainSegment segment)
    {before : List String} {fault : StepFault} (h : v.FailsAt segments before segment fault)
    (hresolved : resolved ≠ "") :
    v.steps resolved segments =
      .error (.path ⟨segment, String.intercalate "." (resolved :: before), fault⟩) := by
  obtain ⟨behind, w, rfl, hbefore, -, hrefuses⟩ := h
  obtain ⟨hplain, hrest⟩ := List.forall_mem_append.mp hsegments
  have hsegment := hrest segment List.mem_cons_self
  rw [steps_append, steps_eq_of_leads hplain hbefore, foldl_extendText hresolved]
  have hstep := step_eq_of_refuses hsegment hrefuses
  simp [steps, hstep, bind, Except.bind]

theorem steps_eq_ok_iff (hsegments : ∀ segment ∈ segments, IsPlainSegment segment)
    (hresolved : resolved ≠ "") : v.steps resolved segments = .ok w ↔ v.Leads segments w := by
  refine ⟨fun hsteps => ?_, fun hleads => steps_eq_of_leads hsegments hleads resolved⟩
  rcases v.leads_or_failsAt segments with ⟨u, hleads⟩ | ⟨before, segment, fault, hfails⟩
  · rw [steps_eq_of_leads hsegments hleads] at hsteps
    exact Except.ok.inj hsteps ▸ hleads
  · rw [steps_eq_of_failsAt hsegments hfails hresolved] at hsteps
    cases hsteps

theorem steps_eq_error_iff (hsegments : ∀ segment ∈ segments, IsPlainSegment segment)
    (hresolved : resolved ≠ "") {e : ResolveError} :
    v.steps resolved segments = .error e ↔ ∃ before segment fault,
      v.FailsAt segments before segment fault ∧
        e = .path ⟨segment, String.intercalate "." (resolved :: before), fault⟩ := by
  constructor
  · intro hsteps
    rcases v.leads_or_failsAt segments with ⟨u, hleads⟩ | ⟨before, segment, fault, hfails⟩
    · rw [steps_eq_of_leads hsegments hleads] at hsteps
      cases hsteps
    · rw [steps_eq_of_failsAt hsegments hfails hresolved] at hsteps
      exact ⟨before, segment, fault, hfails, (Except.error.inj hsteps).symm⟩
  · rintro ⟨before, segment, fault, hfails, rfl⟩
    exact steps_eq_of_failsAt hsegments hfails hresolved

end Steps

end Value

/-- The path with further segments behind it. -/
def Path.extend (p : Path) (more : List String) : Path :=
  ⟨p.segments ++ more, p.fromCurrent⟩

namespace Context

/-- The value that a path starts from, with the text and the segments that it goes on by: the
innermost binding of its first segment, or else the current value. -/
inductive StartsAt (c : Context) (p : Path) : Value → String → List String → Prop
  | bound {name : String} {rest : List String} {inner outer : List Scope} {scope : Scope}
      {v : Value}
      (hname : p = ⟨name :: rest, false⟩) (hscopes : c.scopes = inner ++ scope :: outer)
      (hinner : ∀ scope ∈ inner, scope.get? name = none) (hscope : scope.get? name = some v) :
      StartsAt c p v name rest
  | current (h : ∀ name ∈ p.segments.head?, p.fromCurrent = true ∨
      ∀ scope ∈ c.scopes, scope.get? name = none) : StartsAt c p c.current "@" p.segments

variable {c : Context} {p : Path}

theorem lookup?_eq_none_iff {name : String} :
    c.lookup? name = none ↔ ∀ scope ∈ c.scopes, scope.get? name = none :=
  List.findSome?_eq_none_iff

theorem startOf_of_startsAt {v : Value} {name : String} {segments : List String}
    (h : c.StartsAt p v name segments) : c.startOf p = (v, name, segments) := by
  cases h with
  | @bound name rest inner outer scope v hname hscopes hinner hscope =>
    have hlookup : c.lookup? name = some v :=
      List.findSome?_eq_some_iff.mpr ⟨inner, scope, outer, hscopes, hscope, hinner⟩
    simp [startOf, hname, Path.rootName?, hlookup]
  | current h =>
    obtain ⟨segments, fromCurrent⟩ := p
    cases fromCurrent with
    | true => rfl
    | false =>
      cases segments with
      | nil => rfl
      | cons name rest =>
        have hlookup : c.lookup? name = none := by
          simpa [lookup?_eq_none_iff] using h
        simp [startOf, Path.rootName?, hlookup]

theorem exists_startsAt (c : Context) (p : Path) :
    ∃ start name segments, c.StartsAt p start name segments := by
  obtain ⟨segments, fromCurrent⟩ := p
  cases fromCurrent with
  | true => exact ⟨_, _, _, .current (by simp)⟩
  | false =>
    cases segments with
    | nil => exact ⟨_, _, _, .current (by simp)⟩
    | cons name rest =>
      cases hlookup : c.lookup? name with
      | none => exact ⟨_, _, _, .current (by simpa using lookup?_eq_none_iff.mp hlookup)⟩
      | some v =>
        obtain ⟨inner, scope, outer, hscopes, hscope, hinner⟩ :=
          List.findSome?_eq_some_iff.mp hlookup
        exact ⟨_, _, _, .bound rfl hscopes hinner hscope⟩

theorem resolve_of_startsAt {start : Value} {name : String} {segments : List String}
    (h : c.StartsAt p start name segments) : c.resolve p = start.steps name segments := by
  rw [resolve, startOf_of_startsAt h]

namespace StartsAt

variable {start : Value} {name : String} {segments : List String}
  (h : c.StartsAt p start name segments)

include h

theorem segments_subset : segments ⊆ p.segments := by
  cases h with
  | bound hname => simp [hname]
  | current => exact List.Subset.refl _

theorem name_ne_empty (hsegments : ∀ segment ∈ p.segments, IsPlainSegment segment) :
    name ≠ "" := by
  cases h with
  | bound hname => exact (hsegments name (by simp [hname])).ne_empty
  | current => decide

theorem extend {more : List String} (hmore : p.fromCurrent = true ∨ p.segments ≠ [] ∨
      ∀ name ∈ more.head?, c.lookup? name = none) :
    c.StartsAt (p.extend more) start name (segments ++ more) := by
  obtain ⟨path, fromCurrent⟩ := p
  cases h with
  | bound hname hscopes hinner hscope =>
    obtain ⟨rfl, rfl⟩ := Path.mk.inj hname
    exact .bound rfl hscopes hinner hscope
  | current hunbound =>
    refine .current fun name hhead => ?_
    cases path with
    | cons first rest => exact hunbound name hhead
    | nil =>
      rcases hmore with hcurrent | hne | hfree
      · exact .inl hcurrent
      · exact absurd rfl hne
      · exact .inr (lookup?_eq_none_iff.mp (hfree name hhead))

end StartsAt

/-- Resolving begins at one place and gives what the segments lead to, or else names the first of
them that leads nowhere, and the text of the path before it. A longer path goes on from where a
shorter one ends; only a path of no name has no beginning of its own, so that the first name behind
it may be bound. -/
theorem resolve_follows (c : Context) (p : Path)
    (h : ∀ segment ∈ p.segments, IsPlainSegment segment) :
    ∃ start name segments, c.StartsAt p start name segments ∧
      (∀ v, c.resolve p = .ok v ↔ start.Leads segments v) ∧
      (∀ e, c.resolve p = .error e ↔ ∃ before segment fault,
        start.FailsAt segments before segment fault ∧
          e = .path ⟨segment, String.intercalate "." (name :: before), fault⟩) ∧
      ∀ more, (p.fromCurrent = true ∨ p.segments ≠ [] ∨
          ∀ name ∈ more.head?, c.lookup? name = none) →
        c.resolve (p.extend more) = c.resolve p >>= fun v =>
          v.steps (String.intercalate "." (name :: segments)) more := by
  obtain ⟨start, name, segments, hstart⟩ := c.exists_startsAt p
  have hresolve := resolve_of_startsAt hstart
  have hname := hstart.name_ne_empty h
  have hsegments : ∀ segment ∈ segments, IsPlainSegment segment :=
    fun segment hmem => h segment (hstart.segments_subset hmem)
  refine ⟨start, name, segments, hstart, fun v => ?_, fun e => ?_, fun more hmore => ?_⟩
  · rw [hresolve, Value.steps_eq_ok_iff hsegments hname]
  · rw [hresolve, Value.steps_eq_error_iff hsegments hname]
  · rw [resolve_of_startsAt (hstart.extend hmore), hresolve, Value.steps_append,
      Value.foldl_extendText hname]

/-- A field and a binding of one name. -/
def shadowedField : Context :=
  ⟨.record [("x", .integer 1)], [[("x", .integer 2)]]⟩

/-- The path of no name leads to the current value, which has the field. A path that goes on from
there with a bound name leads to the binding instead. -/
theorem resolve_extend_shadowed :
    (∀ segment ∈ ["x"], IsPlainSegment segment) ∧
    shadowedField.resolve (Path.extend ⟨[], false⟩ ["x"]) = .ok (.integer 2) ∧
    ∀ resolved, (shadowedField.resolve ⟨[], false⟩ >>= fun v => v.steps resolved ["x"]) =
      .ok (.integer 1) := by
  refine ⟨?_, rfl, fun resolved => rfl⟩
  intro segment hmem
  obtain rfl := List.mem_singleton.mp hmem
  exact ⟨by decide, fun htext => absurd htext (by decide)⟩

/-- The inner binding of the name hides the outer one and the field of the current value. -/
def unitRows : Context :=
  ⟨.record [("rows", .text "none")],
    [[("rows", .sequence [.absent, .record [("unit", .absent)]])], [("rows", .integer 2)]]⟩

/-- A field that holds nothing is found; there is no way on from it. -/
theorem resolve_follows_unit :
    (∀ segment ∈ ["rows", "01", "unit"], IsPlainSegment segment) ∧
    unitRows.resolve ⟨["rows", "01", "unit"], false⟩ = .ok .absent ∧
    unitRows.resolve ⟨["rows", "01", "unit", "name"], false⟩ =
      .error (.path ⟨"name", "rows.01.unit", .onAbsent "name"⟩) := by
  have hplain : ∀ segment ∈ ["rows", "01", "unit"], IsPlainSegment segment := by
    have hindex : IsDecimal "01" := ⟨⟨by decide, by decide⟩, by decide⟩
    intro segment hmem
    simp only [List.mem_cons, List.not_mem_nil, or_false] at hmem
    rcases hmem with rfl | rfl | rfl
    · exact ⟨by decide, fun htext => absurd htext (by decide)⟩
    · exact ⟨by decide, fun _ => hindex⟩
    · exact ⟨by decide, fun htext => absurd htext (by decide)⟩
  obtain ⟨start, name, segments, hstart, hok, -, hfurther⟩ :=
    resolve_follows unitRows ⟨["rows", "01", "unit"], false⟩ hplain
  have hbound : unitRows.startOf ⟨["rows", "01", "unit"], false⟩ =
      (.sequence [.absent, .record [("unit", .absent)]], "rows", ["01", "unit"]) := rfl
  rw [startOf_of_startsAt hstart] at hbound
  simp only [Prod.mk.injEq] at hbound
  obtain ⟨rfl, rfl, rfl⟩ := hbound
  have hleads : (Value.sequence [.absent, .record [("unit", .absent)]]).Leads ["01", "unit"]
      .absent :=
    .further (.item ⟨by decide, by decide⟩ rfl) (.further (.field rfl) .here)
  have hunit := (hok .absent).mpr hleads
  refine ⟨hplain, hunit, ?_⟩
  have hname := hfurther ["name"] (.inr (.inl (by simp)))
  rw [hunit] at hname
  exact hname

end Context

end TextTemplate
