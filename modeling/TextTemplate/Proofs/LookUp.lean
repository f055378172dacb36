import TextTemplate.Proofs.LongNumber
import TextTemplate.Proofs.Stop

/-! The paths that a node looks up, one after the other, and what can go wrong with it that is no
error of the rendering: a path that meets a long index, or a value with a long integer. -/

namespace TextTemplate

/-- What a rendering must not end with. -/
def Interruption.IsBad : Interruption → Prop
  | error _ => False
  | integer _ | crash _ | limit _ => True

@[simp] theorem Interruption.not_isBad_error (e : RenderError) : ¬ IsBad (.error e) := id

@[simp] theorem Interruption.isBad_integer (fault : IntegerFault) : IsBad (.integer fault) :=
  trivial

@[simp] theorem Interruption.isBad_crash (reason : String) : IsBad (.crash reason) := trivial

@[simp] theorem Interruption.isBad_limit (fault : IntegerFault) : IsBad (.limit fault) := trivial

theorem Interruption.isBad_tooDeep_iff {limit : Int} {position : Position} {name : String} :
    (tooDeep limit position name).IsBad ↔ IsLong limit := by
  by_cases hlong : IsLong limit
  · simp [tooDeep_of_isLong position name hlong, hlong]
  · simp [tooDeep_of_not_isLong position name hlong, hlong]

/-- Every segment of a compiled path is a name or an integer. -/
theorem Path.WellFormed.isSegment {p : Path} (h : p.WellFormed) :
    ∀ segment ∈ p.segments, IsSegment segment := by
  unfold Path.WellFormed at h
  split at h
  · exact h
  · obtain ⟨first, more, hsegments, hfirst, hmore⟩ := h
    rw [hsegments]
    exact List.forall_mem_cons.mpr ⟨.inl hfirst, hmore⟩

theorem FormatterRegistry.exists_builtin_of_get? {mode : EscapeMode} {name : String}
    {f : Formatter} (h : (standard mode).get? name = some f) :
    ∃ b : Builtin, f = b.formatter ∧
      (b = mode.formatter ∨ NameMap.get? Builtin.table name = some b) := by
  rw [standard, NameMap.get?_put] at h
  by_cases hname : name = defaultFormatterName
  · rw [if_pos hname] at h
    exact ⟨mode.formatter, (Option.some_inj.mp h).symm, .inl rfl⟩
  · rw [if_neg hname, builtin, NameMap.get?_map] at h
    obtain ⟨b, hb, rfl⟩ := Option.map_eq_some_iff.mp h
    exact ⟨b, rfl, .inr hb⟩

namespace Environment

/-- The value that a path starts from, and the segments that are applied to it. -/
def start (ρ : Environment) (p : Path) : Value × List String :=
  match p.rootName?.bind ρ.bound with
  | some v => (v, p.segments.drop 1)
  | none => (ρ.current, p.segments)

def MeetsLongIndex (ρ : Environment) (p : Path) : Prop :=
  (ρ.start p).1.MeetsLongIndex (ρ.start p).2

/-- The condition does not hold, as its value is not truthy or it need not be found. -/
def Denies (ρ : Environment) (setup : Setup) (condition : Path) : Prop :=
  (∃ v, ρ.resolve condition = .ok v ∧ v.isTruthy = false) ∨
    setup.strictConditions = false ∧ ∃ fault, ρ.resolve condition = .error (.path fault)

/-- The node gets as far as looking up the path. -/
inductive LooksUp (ρ : Environment) (setup : Setup) : Node → Path → Prop
  | value {position : Position} {path : Path} {formatter : Option FormatterCall} :
      LooksUp ρ setup (.value position path formatter) path
  | condition {position : Position} {condition : Path} {body : List Node}
      {otherwise : Option (List Node)} :
      LooksUp ρ setup (.ifBlock position condition body otherwise) condition
  | chained {position position' : Position} {condition condition' path : Path}
      {body body' : List Node} {otherwise : Option (List Node)} (hdenies : ρ.Denies setup condition)
      (h : LooksUp ρ setup (.ifBlock position' condition' body' otherwise) path) :
      LooksUp ρ setup
        (.ifBlock position condition body
          (some [.ifBlock position' condition' body' otherwise])) path
  | items {position : Position} {item : String} {index : Option String} {source : Path}
      {body : List Node} : LooksUp ρ setup (.forBlock position item index source body) source
  | bound {position : Position} {name : String} {source : Path} {body : List Node} :
      LooksUp ρ setup (.withBlock position name source body) source
  | root {position : Position} {template : String} {t : Template} {path : Path}
      {arguments : List (String × Path)} (ht : setup.template? template = some t) :
      LooksUp ρ setup (.call position template (some path) arguments) path
  | argument {position : Position} {template : String} {t : Template} {root : Option Path}
      {before behind : List (String × Path)} {argument : String × Path}
      (ht : setup.template? template = some t)
      (hroot : ∀ path ∈ root, ∃ v, ρ.resolve path = .ok v)
      (hbefore : ∀ argument ∈ before, ∃ v, ρ.resolve argument.2 = .ok v) :
      LooksUp ρ setup (.call position template root (before ++ argument :: behind)) argument.2

/-- The node looks up a path that meets a long index, or its value has a long integer that its
formatter comes to write. -/
inductive MeetsLongNumber (ρ : Environment) (setup : Setup) : Node → Prop
  | index {n : Node} {path : Path} (hpath : ρ.LooksUp setup n path) (h : ρ.MeetsLongIndex path) :
      MeetsLongNumber ρ setup n
  | written {position : Position} {path : Path} {formatter : Option FormatterCall} {v : Value}
      {b : Builtin} (hv : ρ.resolve path = .ok v)
      (hformatter : setup.formatters.get? (formatter.getD ⟨setup.defaultFormatter, []⟩).name =
        some b.formatter)
      (hcount : b.signature.fault?
        (formatter.getD ⟨setup.defaultFormatter, []⟩).arguments.length = none)
      (h : b.WritesLong v) : MeetsLongNumber ρ setup (.value position path formatter)

section LookUp

variable {ρ : Environment} {setup : Setup} {name : String} {position : Position}

theorem resolve_eq_steps (ρ : Environment) (p : Path) :
    ∃ resolved, ρ.resolve p = (ρ.start p).1.steps resolved (ρ.start p).2 := by
  unfold resolve start
  cases p.rootName? with
  | none => exact ⟨"@", rfl⟩
  | some name =>
    simp only [Option.bind_some]
    cases ρ.bound name with
    | none => exact ⟨"@", rfl⟩
    | some v => exact ⟨name, rfl⟩

theorem failsBy_resolve {p : Path} (h : p.WellFormed) :
    FailsBy ResolveError.IsBad (ρ.resolve p) ↔ ρ.MeetsLongIndex p := by
  obtain ⟨resolved, hsteps⟩ := ρ.resolve_eq_steps p
  have hsegments : ∀ segment ∈ (ρ.start p).2, IsSegment segment := by
    intro segment hmem
    apply h.isSegment
    unfold start at hmem
    split at hmem
    · exact List.mem_of_mem_drop hmem
    · exact hmem
  rw [hsteps, Value.failsBy_steps hsegments, MeetsLongIndex]

theorem find_eq_ok_iff {p : Path} {v : Value} :
    ρ.find name position p = .ok v ↔ ρ.resolve p = .ok v := by
  unfold find
  cases ρ.resolve p with
  | ok v => simp
  | error e => cases e <;> simp

theorem failsBy_find {p : Path} (h : p.WellFormed) :
    FailsBy Interruption.IsBad (ρ.find name position p) ↔ ρ.MeetsLongIndex p := by
  rw [← failsBy_resolve h]
  unfold find
  cases ρ.resolve p with
  | ok v => exact iff_of_false (not_failsBy_ok v) (not_failsBy_ok v)
  | error e => cases e <;> simp [ResolveError.IsBad]

theorem failsBy_findCondition {p : Path} (h : p.WellFormed) :
    FailsBy Interruption.IsBad (ρ.findCondition setup name position p) ↔ ρ.MeetsLongIndex p := by
  have hfind : FailsBy Interruption.IsBad (ρ.find name position p) ↔ ρ.MeetsLongIndex p :=
    failsBy_find h
  rw [← hfind]
  unfold findCondition find
  cases setup.strictConditions <;> cases ρ.resolve p with
  | ok v => exact Iff.rfl
  | error e => cases e <;> simp

theorem exists_findCondition_iff {p : Path} :
    (∃ v, ρ.findCondition setup name position p = .ok v ∧ v.isTruthy = false) ↔
      ρ.Denies setup p := by
  unfold findCondition Denies find
  cases setup.strictConditions <;> cases ρ.resolve p with
  | ok v => simp
  | error e => cases e <;> simp [Value.isTruthy]

/-- The conditions of a chain are looked up in their order, up to the first that holds. -/
theorem failsBy_findBranch {path : Path} {body : List Node} {otherwise : Option (List Node)}
    (h : (Node.ifBlock position path body otherwise).WellFormed) :
    FailsBy Interruption.IsBad (ρ.findBranch setup name position path body otherwise) ↔
      ∃ p, ρ.LooksUp setup (.ifBlock position path body otherwise) p ∧ ρ.MeetsLongIndex p := by
  fun_induction findBranch ρ setup name position path body otherwise with
  | case1 position path body otherwise ih =>
    obtain ⟨hpath, -, hotherwise⟩ := h
    rw [failsBy_bind, failsBy_findCondition hpath]
    constructor
    · rintro (hmeets | ⟨v, hv, hfails⟩)
      · exact ⟨path, .condition, hmeets⟩
      · by_cases htruthy : v.isTruthy = true
        · rw [if_pos htruthy] at hfails
          exact absurd hfails (not_failsBy_ok body)
        · rw [if_neg htruthy] at hfails
          split at hfails
          · obtain ⟨p, hlooks, hmeets⟩ := (ih hotherwise.1).mp hfails
            have hdenies : ρ.Denies setup path :=
              exists_findCondition_iff.mp ⟨v, hv, by simpa using htruthy⟩
            exact ⟨p, .chained hdenies hlooks, hmeets⟩
          · exact absurd hfails (not_failsBy_ok _)
    · rintro ⟨p, hlooks, hmeets⟩
      cases hlooks with
      | condition => exact .inl hmeets
      | chained hdenies hlooks =>
        obtain ⟨v, hv, htruthy⟩ := exists_findCondition_iff.mpr hdenies
        refine .inr ⟨v, hv, ?_⟩
        rw [if_neg (by simp [htruthy])]
        exact (ih hotherwise.1).mpr ⟨p, hlooks, hmeets⟩

theorem failsBy_format_of_find {path : Path} {formatter : Option FormatterCall}
    {call : FormatterCall} (hcall : formatter.getD ⟨setup.defaultFormatter, []⟩ = call) {v : Value}
    {b : Builtin} (hv : ρ.find name position path = .ok v)
    (hget : setup.formatters.get? call.name = some b.formatter) :
    FailsBy Interruption.IsBad (ρ.format setup name position path formatter) ↔
      b.signature.fault? call.arguments.length = none ∧
        FailsBy FormatFailure.IsBad (b.textOf v call.arguments) := by
  have hsignature : b.formatter.signature = some b.signature := rfl
  have hrun : b.formatter.run v call.arguments = .text <$> b.textOf v call.arguments := rfl
  rw [format, hv, hcall, failsBy_ok_bind, hget]
  dsimp only
  rw [hsignature, hrun, Option.bind_some]
  cases b.signature.fault? call.arguments.length with
  | some fault => simp
  | none =>
    cases b.textOf v call.arguments with
    | ok text => simp [Functor.map, Except.map]
    | error e => cases e <;> simp [Functor.map, Except.map]

theorem failsBy_format {mode : EscapeMode} (hformatters : setup.formatters = .standard mode)
    {path : Path} {formatter : Option FormatterCall}
    (h : (Node.value position path formatter).WellFormed) :
    FailsBy Interruption.IsBad (ρ.format setup name position path formatter) ↔
      ρ.MeetsLongNumber setup (.value position path formatter) := by
  obtain ⟨hpath, hformatter⟩ := h
  have hfind : FailsBy Interruption.IsBad (ρ.find name position path) ↔ ρ.MeetsLongIndex path :=
    failsBy_find hpath
  have harguments : ∀ l ∈ (formatter.getD ⟨setup.defaultFormatter, []⟩).arguments,
      l.WellFormed := by
    cases formatter with
    | none => simp
    | some call => exact (hformatter call rfl).2
  constructor
  · intro hfails
    cases hv : ρ.find name position path with
    | error interruption =>
      have hformat : ρ.format setup name position path formatter = .error interruption := by
        rw [format, hv]
        rfl
      rw [hformat, failsBy_error] at hfails
      exact .index .value (hfind.mp ⟨interruption, hv, hfails⟩)
    | ok v =>
      cases hget : setup.formatters.get? (formatter.getD ⟨setup.defaultFormatter, []⟩).name with
      | none =>
        rw [format, hv, failsBy_ok_bind, hget] at hfails
        simp at hfails
      | some f =>
        rw [hformatters] at hget
        obtain ⟨b, rfl, -⟩ := FormatterRegistry.exists_builtin_of_get? hget
        rw [← hformatters] at hget
        obtain ⟨hcount, htext⟩ := (failsBy_format_of_find rfl hv hget).mp hfails
        have hwrites := (Builtin.failsBy_textOf hcount harguments).mp htext
        exact .written (find_eq_ok_iff.mp hv) hget hcount hwrites
  · intro hmeets
    cases hmeets with
    | index hlooks hmeets =>
      cases hlooks
      obtain ⟨interruption, hi, hbad⟩ := hfind.mpr hmeets
      refine ⟨interruption, ?_, hbad⟩
      rw [format, hi]
      rfl
    | written hv hget hcount hwrites =>
      have htext := (Builtin.failsBy_textOf hcount harguments).mpr hwrites
      exact (failsBy_format_of_find rfl (find_eq_ok_iff.mpr hv) hget).mpr ⟨hcount, htext⟩

theorem failsBy_findAll (ρ : Environment) (name : String) (position : Position)
    {arguments : List (String × Path)} (h : ∀ argument ∈ arguments, argument.2.WellFormed) :
    FailsBy Interruption.IsBad (ρ.findAll name position arguments) ↔
      ∃ before argument behind, arguments = before ++ argument :: behind ∧
        (∀ argument ∈ before, ∃ v, ρ.resolve argument.2 = .ok v) ∧
        ρ.MeetsLongIndex argument.2 := by
  have hok (argument : String × Path) :
      (∃ found, (ρ.find name position argument.2).map (fun v => (argument.1, v)) = .ok found) ↔
        ∃ v, ρ.resolve argument.2 = .ok v := by
    have hfind (v : Value) :
        ρ.find name position argument.2 = .ok v ↔ ρ.resolve argument.2 = .ok v := find_eq_ok_iff
    simp only [← hfind]
    cases ρ.find name position argument.2 <;> simp [Except.map]
  rw [findAll, failsBy_mapM]
  simp only [hok]
  constructor
  · rintro ⟨before, argument, behind, rfl, hbefore, hfails⟩
    have hpath := h argument (by simp)
    exact ⟨before, argument, behind, rfl, hbefore, (failsBy_find hpath).mp (failsBy_map.mp hfails)⟩
  · rintro ⟨before, argument, behind, rfl, hbefore, hmeets⟩
    have hpath := h argument (by simp)
    refine ⟨before, argument, behind, rfl, hbefore, ?_⟩
    exact failsBy_map.mpr ((failsBy_find hpath).mpr hmeets)

theorem meetsLongNumber_iff {n : Node}
    (h : ∀ position path formatter, n ≠ .value position path formatter) :
    ρ.MeetsLongNumber setup n ↔ ∃ path, ρ.LooksUp setup n path ∧ ρ.MeetsLongIndex path := by
  constructor
  · intro hmeets
    cases hmeets with
    | index hlooks hmeets => exact ⟨_, hlooks, hmeets⟩
    | written => exact absurd rfl (h _ _ _)
  · rintro ⟨path, hlooks, hmeets⟩
    exact .index hlooks hmeets

theorem failsBy_findItems {source : Path} (h : source.WellFormed) :
    FailsBy Interruption.IsBad (ρ.findItems name position source) ↔ ρ.MeetsLongIndex source := by
  rw [findItems, failsBy_bind, failsBy_find h]
  refine or_iff_left ?_
  rintro ⟨v, -, hfails⟩
  cases v <;> simp at hfails

theorem exists_findRoot_iff {root : Option Path} :
    (∃ current, ρ.findRoot name position root = .ok current) ↔
      ∀ path ∈ root, ∃ v, ρ.resolve path = .ok v := by
  cases root with
  | none => simp [findRoot]
  | some path => simp [findRoot, find_eq_ok_iff]

theorem failsBy_call {template : String} {root : Option Path} {arguments : List (String × Path)}
    (h : (Node.call position template root arguments).WellFormed) :
    FailsBy Interruption.IsBad (ρ.look setup name (.call position template root arguments)) ↔
      ∃ path, ρ.LooksUp setup (.call position template root arguments) path ∧
        ρ.MeetsLongIndex path := by
  obtain ⟨hroot, harguments, -⟩ := h
  have hall := failsBy_findAll ρ name position fun argument hmem => (harguments argument hmem).2
  cases ht : setup.template? template with
  | none =>
    have hnone : setup.library.bind (·.get? template) = none := ht
    rw [look, findTemplate, hnone]
    refine iff_of_false ?_ ?_
    · rintro ⟨interruption, hlook, hbad⟩
      cases hlook
      exact hbad
    · rintro ⟨path, hlooks, -⟩
      cases hlooks with
      | root ht' | argument ht' => exact absurd (ht.symm.trans ht') (by simp)
  | some t =>
    rw [look, findTemplate_eq_ok_iff.mpr ht, failsBy_ok_bind, failsBy_bind]
    simp only [failsBy_bind_pure, hall]
    constructor
    · rintro (hfails | ⟨current, hcurrent, before, argument, behind, rfl, hbefore, hmeets⟩)
      · cases root with
        | none => exact absurd hfails (not_failsBy_ok _)
        | some path => exact ⟨path, .root ht, (failsBy_find (hroot path rfl)).mp hfails⟩
      · have hresolved := exists_findRoot_iff.mp ⟨current, hcurrent⟩
        exact ⟨argument.2, .argument ht hresolved hbefore, hmeets⟩
    · rintro ⟨path, hlooks, hmeets⟩
      cases hlooks with
      | root => exact .inl ((failsBy_find (hroot path rfl)).mpr hmeets)
      | @argument _ _ _ _ before behind argument _ hresolved hbefore =>
        obtain ⟨current, hcurrent⟩ := exists_findRoot_iff.mpr hresolved
        exact .inr ⟨current, hcurrent, before, argument, behind, rfl, hbefore, hmeets⟩

/-- What a node of a compiled template looks up ends as it must, unless a long number is met. -/
theorem failsBy_look {mode : EscapeMode} (hformatters : setup.formatters = .standard mode)
    {n : Node} (h : n.WellFormed) :
    FailsBy Interruption.IsBad (ρ.look setup name n) ↔ ρ.MeetsLongNumber setup n := by
  cases n with
  | text | comment =>
    rw [meetsLongNumber_iff (by simp)]
    refine iff_of_false (not_failsBy_ok _) ?_
    rintro ⟨path, ⟨⟩, -⟩
  | value position path formatter => 
    rw [look, failsBy_map, failsBy_format hformatters h]
  | ifBlock position path body otherwise =>
    rw [meetsLongNumber_iff (by simp), look, failsBy_map, failsBy_findBranch h]
  | forBlock position item index source body =>
    obtain ⟨-, -, hsource, -⟩ := h
    rw [meetsLongNumber_iff (by simp), look, failsBy_map, failsBy_findItems hsource]
    constructor
    · intro hmeets
      exact ⟨source, .items, hmeets⟩
    · rintro ⟨path, ⟨⟩, hmeets⟩
      exact hmeets
  | withBlock position bound source body =>
    obtain ⟨-, hsource, -⟩ := h
    rw [meetsLongNumber_iff (by simp), look, failsBy_map, failsBy_find hsource]
    constructor
    · intro hmeets
      exact ⟨source, .bound, hmeets⟩
    · rintro ⟨path, ⟨⟩, hmeets⟩
      exact hmeets
  | call position template root arguments =>
    rw [meetsLongNumber_iff (by simp), failsBy_call h]

end LookUp

end Environment

end TextTemplate
