import TextTemplate.Proofs.LongNumber
import TextTemplate.Settings

/-! Which mappings give settings. There are documented data for each setting, and a few more are
taken; what becomes of a mapping with other data is decided by the first setting that is refused. -/

namespace TextTemplate

namespace Datum

/-- Something in the datum, in a key or in an item, has no literal, for this reason. -/
inductive Withholds : Datum → MethodFault → Prop
  | integer {n : Int} (h : IsLong n) : Withholds (.integer n) (.integer .tooLongToWrite)
  | listItem {items : List Datum} {d : Datum} {fault : MethodFault} (hmem : d ∈ items)
      (h : Withholds d fault) : Withholds (.list items) fault
  | tupleItem {items : List Datum} {d : Datum} {fault : MethodFault} (hmem : d ∈ items)
      (h : Withholds d fault) : Withholds (.tuple items) fault
  | key {entries : List (Datum × Datum)} {entry : Datum × Datum} {fault : MethodFault}
      (hmem : entry ∈ entries) (h : Withholds entry.1 fault) : Withholds (.map entries) fault
  | item {entries : List (Datum × Datum)} {entry : Datum × Datum} {fault : MethodFault}
      (hmem : entry ∈ entries) (h : Withholds entry.2 fault) : Withholds (.map entries) fault
  | value {v : Value} (h : v.HoldsLong) : Withholds (.value v) (.integer .tooLongToWrite)
  | foreign {thing : Foreign} {fault : MethodFault} (h : thing.literal = .error fault) :
      Withholds (.foreign thing) fault

section Withholds

variable {fault : MethodFault}

theorem withholds_integer {n : Int} :
    Withholds (.integer n) fault ↔ IsLong n ∧ fault = .integer .tooLongToWrite := by
  constructor
  · intro h
    cases h with
    | integer h => exact ⟨h, rfl⟩
  · rintro ⟨h, rfl⟩
    exact .integer h

theorem withholds_list {items : List Datum} :
    Withholds (.list items) fault ↔ ∃ d ∈ items, Withholds d fault := by
  constructor
  · intro h
    cases h with
    | listItem hmem h => exact ⟨_, hmem, h⟩
  · rintro ⟨d, hmem, h⟩
    exact .listItem hmem h

theorem withholds_tuple {items : List Datum} :
    Withholds (.tuple items) fault ↔ ∃ d ∈ items, Withholds d fault := by
  constructor
  · intro h
    cases h with
    | tupleItem hmem h => exact ⟨_, hmem, h⟩
  · rintro ⟨d, hmem, h⟩
    exact .tupleItem hmem h

theorem withholds_map {entries : List (Datum × Datum)} :
    Withholds (.map entries) fault ↔
      ∃ entry ∈ entries, Withholds entry.1 fault ∨ Withholds entry.2 fault := by
  constructor
  · intro h
    cases h with
    | key hmem h => exact ⟨_, hmem, .inl h⟩
    | item hmem h => exact ⟨_, hmem, .inr h⟩
  · rintro ⟨entry, hmem, h | h⟩
    · exact .key hmem h
    · exact .item hmem h

theorem withholds_value {v : Value} :
    Withholds (.value v) fault ↔ v.HoldsLong ∧ fault = .integer .tooLongToWrite := by
  constructor
  · intro h
    cases h with
    | value h => exact ⟨h, rfl⟩
  · rintro ⟨h, rfl⟩
    exact .value h

theorem withholds_foreign {thing : Foreign} :
    Withholds (.foreign thing) fault ↔ thing.literal = .error fault := by
  constructor
  · intro h
    cases h with
    | foreign h => exact h
  · exact .foreign

end Withholds

theorem failsBy_scalarText {a : Scalar} {bad : IntegerFault → Prop} :
    FailsBy bad (scalarText a) ↔ (Value.scalar a).HoldsLong ∧ bad .tooLongToWrite := by
  rw [Value.holdsLong_scalar]
  cases a <;> simp [scalarText, Value.IsLong, Value.integer]

mutual

theorem failsBy_valueText (v : Value) (bad : IntegerFault → Prop) :
    FailsBy bad (valueText v) ↔ v.HoldsLong ∧ bad .tooLongToWrite := by
  cases v with
  | scalar a => rw [valueText, failsBy_bind_pure, failsBy_scalarText]
  | sequence items =>
    rw [valueText, failsBy_bind_pure, failsBy_valueTexts items, Value.holdsLong_sequence]
  | record fields =>
    rw [valueText, failsBy_bind_pure, failsBy_fieldTexts fields, Value.holdsLong_record]
  | absent => simp [valueText, Value.not_holdsLong_absent]

theorem failsBy_valueTexts (items : List Value) (bad : IntegerFault → Prop) :
    FailsBy bad (valueTexts items) ↔ (∃ v ∈ items, v.HoldsLong) ∧ bad .tooLongToWrite := by
  cases items with
  | nil => simp [valueTexts]
  | cons v items =>
    have hothers (text : String) (bad : IntegerFault → Prop) :
        FailsBy bad (valueTexts items >>= fun texts => pure (text :: texts)) ↔
          (∃ v ∈ items, v.HoldsLong) ∧ bad .tooLongToWrite := by
      rw [failsBy_bind_pure, failsBy_valueTexts items]
    rw [valueTexts, failsBy_bind_single (failsBy_valueText v) hothers]
    simp only [List.mem_cons, exists_eq_or_imp]

theorem failsBy_fieldTexts (fields : List (String × Value)) (bad : IntegerFault → Prop) :
    FailsBy bad (fieldTexts fields) ↔
      (∃ field ∈ fields, field.2.HoldsLong) ∧ bad .tooLongToWrite := by
  cases fields with
  | nil => simp [fieldTexts]
  | cons field fields =>
    obtain ⟨name, v⟩ := field
    have hothers (text : String) (bad : IntegerFault → Prop) :
        FailsBy bad (fieldTexts fields >>= fun texts =>
            pure ((quoted name ++ ": " ++ text) :: texts)) ↔
          (∃ field ∈ fields, field.2.HoldsLong) ∧ bad .tooLongToWrite := by
      rw [failsBy_bind_pure, failsBy_fieldTexts fields]
    rw [fieldTexts, failsBy_bind_single (failsBy_valueText v) hothers]
    simp only [List.mem_cons, exists_eq_or_imp]

end

theorem failsFor_mapError {α : Type} {text : Except IntegerFault α} {P : Prop}
    (h : ∀ bad, FailsBy bad text ↔ P ∧ bad .tooLongToWrite) :
    FailsFor (fun fault : MethodFault => P ∧ fault = .integer .tooLongToWrite)
      (text.mapError .integer) := by
  cases text with
  | ok a =>
    refine failsFor_ok ?_ a
    rintro _ ⟨hP, -⟩
    exact not_failsBy_ok a ((h fun _ => True).mpr ⟨hP, trivial⟩)
  | error fault =>
    obtain ⟨hP, hfault⟩ := (h (· = fault)).mp (failsBy_error.mpr rfl)
    refine ⟨fun he => ⟨hP, ?_⟩, fun _ => ⟨.integer fault, rfl⟩⟩
    rw [hfault]
    exact (Except.error.inj he).symm

mutual

theorem failsFor_literalText (d : Datum) : FailsFor d.Withholds d.literalText := by
  cases d with
  | null | truth | real | text | date => exact failsFor_ok nofun _
  | integer n =>
    exact (failsFor_mapError fun _ => failsBy_writeInteger).congr fun _ => withholds_integer.symm
  | list items =>
    exact ((failsFor_literalTexts items).map _).congr fun _ => withholds_list.symm
  | tuple items =>
    exact ((failsFor_literalTexts items).map _).congr fun _ => withholds_tuple.symm
  | map entries => exact ((failsFor_entryTexts entries).map _).congr fun _ => withholds_map.symm
  | value v =>
    exact (failsFor_mapError (failsBy_valueText v)).congr fun _ => withholds_value.symm
  | foreign thing => exact (failsFor_self _).congr fun _ => withholds_foreign.symm

theorem failsFor_literalTexts (items : List Datum) :
    FailsFor (fun fault => ∃ d ∈ items, d.Withholds fault) (literalTexts items) := by
  cases items with
  | nil => exact failsFor_ok (by simp) []
  | cons d items =>
    refine ((failsFor_literalText d).bind fun text => (failsFor_literalTexts items).map _).congr ?_
    simp

theorem failsFor_entryTexts (entries : List (Datum × Datum)) :
    FailsFor (fun fault => ∃ entry ∈ entries, entry.1.Withholds fault ∨ entry.2.Withholds fault)
      (entryTexts entries) := by
  cases entries with
  | nil => exact failsFor_ok (by simp) []
  | cons entry entries =>
    obtain ⟨key, item⟩ := entry
    refine ((failsFor_literalText key).bind fun text => (failsFor_literalText item).bind fun text' =>
      (failsFor_entryTexts entries).map _).congr ?_
    simp [or_assoc]

end

/-- The datum has no plain text, for this reason. -/
def WithholdsText : Datum → MethodFault → Prop
  | .foreign thing, fault => thing.text = .error fault
  | d, fault => d.Withholds fault

theorem failsFor_plainText (d : Datum) : FailsFor d.WithholdsText d.plainText := by
  cases d with
  | text | date => exact failsFor_ok nofun _
  | foreign thing => exact failsFor_self _
  | _ => exact failsFor_literalText _

end Datum

/-- What a mapping can set, apart from its unknown names. -/
inductive Setting where
  | schemaVersion
  | maxDepth
  | autoescape
  | strictConditions
  | defaultFormatter
  | templates
  deriving DecidableEq

namespace Setting

/-- The settings in the order in which they are checked. -/
def all : List Setting :=
  [schemaVersion, maxDepth, autoescape, strictConditions, defaultFormatter, templates]

def name : Setting → String
  | schemaVersion => "schema_version"
  | maxDepth => "max_depth"
  | autoescape => "autoescape"
  | strictConditions => "strict_conditions"
  | defaultFormatter => "default_formatter"
  | templates => "templates"

theorem mem_all (k : Setting) : k ∈ all := by
  cases k <;> decide

/-- The data that are documented for a setting. -/
def Documents : Setting → Datum → Prop
  | schemaVersion, d => d = .integer TextTemplate.schemaVersion
  | maxDepth, d => ∃ n, d = .integer n ∧ 1 ≤ n
  | autoescape, d => d = .text "html" ∨ d = .text "none"
  | strictConditions, d => ∃ b, d = .truth b
  | defaultFormatter, d => ∃ s, d = .text s ∧ s ≠ ""
  | templates, d => d = .null ∨ ∃ entries, d = .map entries ∧
      ∀ entry ∈ entries, ∃ name source, entry = (.text name, .text source)

/-- The data that are taken whether they are documented or not: for the schema, whatever is worth
its version, for the way of escaping, whatever equals the name of one, and for the templates,
whatever counts as nothing. -/
def Tolerates : Setting → Datum → Prop
  | schemaVersion, d => Settings.isCurrent d = .ok true
  | autoescape, d => ∃ s, Settings.equalText? d = .ok (some s) ∧ (s = "html" ∨ s = "none")
  | templates, d => Settings.isNothing d = .ok true
  | _, _ => False

def Takes (k : Setting) (d : Datum) : Prop :=
  k.Documents d ∨ k.Tolerates d

/-- The check of a setting, without what it gives. -/
def judge (source : String) : Setting → Datum → Checking Unit
  | schemaVersion, d => (fun _ => ()) <$> Settings.checkSchema source d
  | maxDepth, d => (fun _ => ()) <$> Settings.checkMaxDepth source d
  | autoescape, d => (fun _ => ()) <$> Settings.checkAutoescape source d
  | strictConditions, d => (fun _ => ()) <$> Settings.checkStrictConditions source d
  | defaultFormatter, d => (fun _ => ()) <$> Settings.checkDefaultFormatter source d
  | templates, d => (fun _ => ()) <$> Settings.checkTemplates source d

def problem : Setting → String → SettingsProblem
  | schemaVersion, found => .schema found
  | maxDepth, found => .maxDepth found
  | autoescape, found => .autoescape found
  | strictConditions, found => .strictConditions found
  | defaultFormatter, _ => .defaultFormatter
  | templates, _ => .templates

/-- What a refused datum is quoted as, behind what its methods are asked for before. -/
def report : Setting → Datum → Except MethodFault String
  | schemaVersion, d => do
    let _ ← Settings.isCurrent d
    d.plainText
  | maxDepth, d | strictConditions, d => d.literalText
  | autoescape, d => do
    let _ ← Settings.equalText? d
    d.literalText
  | defaultFormatter, _ => .ok ""
  | templates, d => do
    let _ ← Settings.isNothing d
    return ""

/-- A datum that is not taken cannot be reported, for this reason: a method that is asked does not
answer, or the datum has no text where the report quotes it. -/
def Stops : Setting → Datum → MethodFault → Prop
  | schemaVersion, d, fault => Settings.isCurrent d = .error fault ∨ d.WithholdsText fault
  | maxDepth, d, fault | strictConditions, d, fault => d.Withholds fault
  | autoescape, d, fault => Settings.equalText? d = .error fault ∨ d.Withholds fault
  | defaultFormatter, _, _ => False
  | templates, d, fault => Settings.isNothing d = .error fault

theorem failsFor_report (k : Setting) (d : Datum) : FailsFor (k.Stops d) (k.report d) := by
  cases k with
  | schemaVersion => exact (failsFor_self _).bind fun _ => d.failsFor_plainText
  | maxDepth | strictConditions => exact d.failsFor_literalText
  | autoescape => exact (failsFor_self _).bind fun _ => d.failsFor_literalText
  | defaultFormatter => exact failsFor_ok (fun _ => not_false) ""
  | templates => exact (failsFor_self _).map _

/-- How a setting is refused. -/
def refusal (source : String) (k : Setting) (d : Datum) : Checking Unit :=
  Settings.refuseDatum source k.problem (k.report d)

end Setting

namespace Settings

theorem map_refuseDatum {α β : Type} (f : α → β) (source : String)
    (problem : String → SettingsProblem) (text : Except MethodFault String) :
    f <$> (refuseDatum source problem text : Checking α) = refuseDatum source problem text := by
  cases text <;> rfl

theorem exists_templateEntry_iff {entry : Datum × Datum} :
    (∃ template, templateEntry? entry = some template) ↔
      ∃ name source, entry = (.text name, .text source) := by
  constructor
  · rintro ⟨template, h⟩
    unfold templateEntry? at h
    split at h
    · exact ⟨_, _, rfl⟩
    · cases h
  · rintro ⟨name, source, rfl⟩
    exact ⟨_, rfl⟩

end Settings

theorem EscapeMode.isSome_ofName? {s : String} :
    (ofName? s).isSome = true ↔ s = "html" ∨ s = "none" := by
  simp only [ofName?, List.find?_isSome, beq_iff_eq]
  simp [all, name, eq_comm]

namespace Settings

variable {source : String} {d : Datum}

theorem checkTemplates_of_isNothing (h : isNothing d = .ok true) :
    checkTemplates source d = .ok [] := by
  unfold checkTemplates
  rw [h]
  rfl

theorem checkTemplates_map {entries : List (Datum × Datum)} {templates : NameMap String}
    (h : entries.mapM templateEntry? = some templates) :
    checkTemplates source (.map entries) = .ok templates := by
  cases entries with
  | nil =>
    obtain rfl : [] = templates := Option.some.inj h
    rfl
  | cons entry entries =>
    rw [checkTemplates, h]
    rfl

end Settings

namespace Setting

theorem takes_schemaVersion {d : Datum} :
    schemaVersion.Takes d ↔ Settings.isCurrent d = .ok true := by
  refine or_iff_right_of_imp ?_
  rintro rfl
  rfl

theorem takes_autoescape {d : Datum} : autoescape.Takes d ↔
    ∃ s, Settings.equalText? d = .ok (some s) ∧ (s = "html" ∨ s = "none") := by
  refine or_iff_right_of_imp ?_
  rintro (rfl | rfl)
  · exact ⟨_, rfl, .inl rfl⟩
  · exact ⟨_, rfl, .inr rfl⟩

theorem judge_of_takes {k : Setting} {d : Datum} (h : k.Takes d) (source : String) :
    k.judge source d = .ok () := by
  cases k with
  | schemaVersion =>
    rw [judge, Settings.checkSchema, takes_schemaVersion.mp h]
    rfl
  | maxDepth =>
    obtain ⟨n, rfl, hn⟩ | h := h
    · simp [judge, Settings.checkMaxDepth, hn, Functor.map, Except.map]
    · exact h.elim
  | autoescape =>
    obtain ⟨s, hs, hmode⟩ := takes_autoescape.mp h
    rw [judge, Settings.checkAutoescape, hs]
    obtain rfl | rfl := hmode <;> rfl
  | strictConditions =>
    obtain ⟨b, rfl⟩ | h := h
    · rfl
    · exact h.elim
  | defaultFormatter =>
    obtain ⟨s, rfl, hs⟩ | h := h
    · simp [judge, Settings.checkDefaultFormatter, hs, Functor.map, Except.map]
    · exact h.elim
  | templates =>
    obtain (rfl | ⟨entries, rfl, hentries⟩) | h := h
    · rfl
    · have htemplates : ∃ templates, entries.mapM Settings.templateEntry? = some templates := by
        rw [exists_mapM_some_iff]
        intro entry hentry
        exact Settings.exists_templateEntry_iff.mpr (hentries entry hentry)
      obtain ⟨templates, htemplates⟩ := htemplates
      rw [judge, Settings.checkTemplates_map htemplates]
      rfl
    · rw [judge, Settings.checkTemplates_of_isNothing h]
      rfl

end Setting

namespace Settings

section Refused

variable {source : String} {d : Datum}

theorem checkSchema_of_not_takes (h : ¬ Setting.schemaVersion.Takes d) :
    checkSchema source d = refuseDatum source .schema (Setting.schemaVersion.report d) := by
  rw [Setting.takes_schemaVersion] at h
  rw [checkSchema, Setting.report]
  cases hcurrent : isCurrent d with
  | error fault => rfl
  | ok current =>
    cases current with
    | true => exact absurd hcurrent h
    | false => rfl

theorem checkMaxDepth_of_not_takes (h : ¬ Setting.maxDepth.Takes d) :
    checkMaxDepth source d = refuseDatum source .maxDepth d.literalText := by
  cases d with
  | integer n => exact if_neg fun hn => h (.inl ⟨n, rfl, hn⟩)
  | _ => rfl

theorem checkAutoescape_of_not_takes (h : ¬ Setting.autoescape.Takes d) :
    checkAutoescape source d = refuseDatum source .autoescape (Setting.autoescape.report d) := by
  rw [Setting.takes_autoescape] at h
  rw [checkAutoescape, Setting.report]
  cases hequal : equalText? d with
  | error fault => rfl
  | ok found =>
    have hnone : found.filter (fun s => (EscapeMode.ofName? s).isSome) = none := by
      rw [Option.filter_eq_none_iff]
      rintro s rfl hmode
      exact h ⟨s, hequal, EscapeMode.isSome_ofName?.mp hmode⟩
    simp only [ask, Except.mapError, bind, Except.bind, hnone]

theorem checkStrictConditions_of_not_takes (h : ¬ Setting.strictConditions.Takes d) :
    checkStrictConditions source d = refuseDatum source .strictConditions d.literalText := by
  cases d with
  | truth b => exact absurd (.inl ⟨b, rfl⟩) h
  | _ => rfl

theorem checkDefaultFormatter_of_not_takes (h : ¬ Setting.defaultFormatter.Takes d) :
    checkDefaultFormatter source d = refuse source .defaultFormatter := by
  cases d with
  | text s =>
    by_cases hs : s = ""
    · exact if_pos hs
    · exact absurd (.inl ⟨s, rfl, hs⟩) h
  | _ => rfl

theorem checkTemplates_of_not_takes (h : ¬ Setting.templates.Takes d) :
    checkTemplates source d =
      refuseDatum source (fun _ => .templates) (Setting.templates.report d) := by
  unfold checkTemplates
  rw [Setting.report]
  cases hnothing : isNothing d with
  | error fault => rfl
  | ok nothing =>
    cases nothing with
    | true => exact absurd (.inr hnothing) h
    | false =>
      cases d with
      | map entries =>
        cases htemplates : entries.mapM templateEntry? with
        | none =>
          simp only [htemplates]
          rfl
        | some templates =>
          have hentries := exists_mapM_some_iff.mp ⟨templates, htemplates⟩
          refine absurd (.inl (.inr ⟨entries, rfl, fun entry hentry => ?_⟩)) h
          exact exists_templateEntry_iff.mp (hentries entry hentry)
      | _ => rfl

end Refused

end Settings

namespace Setting

theorem judge_of_not_takes {k : Setting} {d : Datum} (h : ¬ k.Takes d) (source : String) :
    k.judge source d = k.refusal source d := by
  cases k with
  | schemaVersion =>
    rw [judge, Settings.checkSchema_of_not_takes h, Settings.map_refuseDatum]
    rfl
  | maxDepth =>
    rw [judge, Settings.checkMaxDepth_of_not_takes h, Settings.map_refuseDatum]
    rfl
  | autoescape =>
    rw [judge, Settings.checkAutoescape_of_not_takes h, Settings.map_refuseDatum]
    rfl
  | strictConditions =>
    rw [judge, Settings.checkStrictConditions_of_not_takes h, Settings.map_refuseDatum]
    rfl
  | defaultFormatter =>
    rw [judge, Settings.checkDefaultFormatter_of_not_takes h]
    rfl
  | templates =>
    rw [judge, Settings.checkTemplates_of_not_takes h, Settings.map_refuseDatum]
    rfl

end Setting

namespace Settings

/-- A mapping with these names for keys. -/
def entriesOf (raw : NameMap Datum) : List (Datum × Datum) :=
  raw.map fun entry => (.text entry.1, entry.2)

theorem given?_entriesOf (raw : NameMap Datum) (name : String) :
    given? (entriesOf raw) name = raw.get? name := by
  induction raw with
  | nil => rfl
  | cons entry raw ih =>
    obtain ⟨key, d⟩ := entry
    by_cases hkey : key = name
    · simp [given?, entriesOf, keyText?, NameMap.get?, hkey]
    · rw [NameMap.get?, if_neg hkey, ← ih]
      simp [given?, entriesOf, keyText?, hkey]

theorem exists_unknownEntries (raw : NameMap Datum) :
    ∃ log, unknownEntries (entriesOf raw) = .ok log := by
  have hkeys : ∀ key ∈ unknownKeys (entriesOf raw), ∃ name, textKey? key = some name := by
    intro key hkey
    obtain ⟨entry, hentry, rfl⟩ := List.mem_map.mp (List.mem_filter.mp hkey).1
    obtain ⟨entry, -, rfl⟩ := List.mem_map.mp hentry
    exact ⟨entry.1, rfl⟩
  obtain ⟨names, hnames⟩ := exists_mapM_some_iff.mpr hkeys
  unfold unknownEntries
  split
  · exact ⟨_, rfl⟩
  · rw [hnames]
    exact ⟨_, rfl⟩

theorem fst_ofEntries (raw : NameMap Datum) (source : String) :
    (ofEntries (entriesOf raw) source).1 = check (entriesOf raw) source := by
  obtain ⟨log, hlog⟩ := exists_unknownEntries raw
  rw [ofEntries, hlog]

end Settings

namespace Setting

/-- What becomes of a setting, given or not. -/
def verdict (raw : NameMap Datum) (source : String) (k : Setting) : Checking Unit :=
  match raw.get? k.name with
  | some d => k.judge source d
  | none => .ok ()

end Setting

namespace Settings

theorem map_checked {α : Type} (raw : NameMap Datum) (name : String)
    (check : Datum → Checking α) (default : α) :
    (fun _ => ()) <$> checked (entriesOf raw) name check default =
      match raw.get? name with
      | some d => (fun _ => ()) <$> check d
      | none => .ok () := by
  rw [checked, given?_entriesOf]
  cases raw.get? name <;> rfl

theorem map_check (raw : NameMap Datum) (source : String) :
    (fun _ => ()) <$> check (entriesOf raw) source =
      (fun _ => ()) <$> Setting.all.mapM (Setting.verdict raw source) := by
  have hschema : Setting.verdict raw source .schemaVersion = (fun _ => ()) <$>
      checked (entriesOf raw) "schema_version" (checkSchema source) _ :=
    (map_checked raw _ _ ()).symm
  have hmaxDepth : Setting.verdict raw source .maxDepth = (fun _ => ()) <$>
      checked (entriesOf raw) "max_depth" (checkMaxDepth source) _ :=
    (map_checked raw _ _ defaultMaxDepth).symm
  have hautoescape : Setting.verdict raw source .autoescape = (fun _ => ()) <$>
      checked (entriesOf raw) "autoescape" (checkAutoescape source) _ :=
    (map_checked raw _ _ EscapeMode.html.name).symm
  have hconditions : Setting.verdict raw source .strictConditions = (fun _ => ()) <$>
      checked (entriesOf raw) "strict_conditions" (checkStrictConditions source) _ :=
    (map_checked raw _ _ false).symm
  have hformatter : Setting.verdict raw source .defaultFormatter = (fun _ => ()) <$>
      checked (entriesOf raw) "default_formatter" (checkDefaultFormatter source) _ :=
    (map_checked raw _ _ defaultFormatterName).symm
  have htemplates : Setting.verdict raw source .templates = (fun _ => ()) <$>
      checked (entriesOf raw) "templates" (checkTemplates source) _ :=
    (map_checked raw _ _ []).symm
  simp only [check, Setting.all, List.mapM_cons, List.mapM_nil, map_bind, map_pure, hschema,
    hmaxDepth, hautoescape, hconditions, hformatter, htemplates, bind_map_left, bind_assoc,
    pure_bind]

theorem failsBy_refuseDatum {α : Type} {source : String} {problem : String → SettingsProblem}
    {text : Except MethodFault String} {bad : SettingsFailure → Prop} :
    FailsBy bad (refuseDatum source problem text : Checking α) ↔
      FailsBy (fun fault => bad (.method fault)) text ∨
        ∃ found, text = .ok found ∧ bad (.invalid ⟨problem found, source⟩) := by
  cases text <;> simp [refuseDatum, refuse, ask, Except.mapError, bind, Except.bind]

end Settings

namespace Setting

/-- The first setting that is refused, with the datum that is given for it. -/
def IsFirstRefused (raw : NameMap Datum) (k : Setting) (d : Datum) : Prop :=
  raw.get? k.name = some d ∧ ¬ k.Takes d ∧
    ∃ before behind, all = before ++ k :: behind ∧
      ∀ j ∈ before, ∀ d, raw.get? j.name = some d → j.Takes d

theorem failsBy_refusal {source : String} {k : Setting} {d : Datum}
    {bad : SettingsFailure → Prop} :
    FailsBy bad (k.refusal source d) ↔
      (∃ fault, k.Stops d fault ∧ k.report d = .error fault ∧ bad (.method fault)) ∨
        (∀ fault, ¬ k.Stops d fault) ∧
          ∃ found, k.report d = .ok found ∧ bad (.invalid ⟨k.problem found, source⟩) := by
  have hreport := k.failsFor_report d
  rw [refusal, Settings.failsBy_refuseDatum]
  refine or_congr ?_ ?_
  · exact exists_congr fun fault =>
      ⟨fun h => ⟨hreport.reason_of_eq h.1, h⟩, And.right⟩
  · rw [← hreport.exists_ok_iff]
    exact ⟨fun ⟨found, hfound, hbad⟩ => ⟨⟨found, hfound⟩, found, hfound, hbad⟩, And.right⟩

theorem failsBy_verdict {raw : NameMap Datum} {source : String} {k : Setting}
    {bad : SettingsFailure → Prop} :
    FailsBy bad (k.verdict raw source) ↔
      ∃ d, raw.get? k.name = some d ∧ ¬ k.Takes d ∧ FailsBy bad (k.refusal source d) := by
  cases hd : raw.get? k.name with
  | none => simp [verdict, hd]
  | some d =>
    by_cases htakes : k.Takes d
    · simp [verdict, hd, judge_of_takes htakes, htakes]
    · simp [verdict, hd, judge_of_not_takes htakes, htakes]

theorem refusal_fails (source : String) (k : Setting) (d : Datum) :
    FailsBy (fun _ => True) (k.refusal source d) := by
  rw [refusal, Settings.failsBy_refuseDatum]
  cases k.report d with
  | ok found => exact .inr ⟨found, rfl, trivial⟩
  | error fault => exact .inl ⟨fault, rfl, trivial⟩

theorem exists_verdict_iff {raw : NameMap Datum} {source : String} {k : Setting} :
    (∃ u, k.verdict raw source = .ok u) ↔ ∀ d, raw.get? k.name = some d → k.Takes d := by
  simp [exists_ok_iff, failsBy_verdict, refusal_fails]

end Setting

namespace Settings

variable {raw : NameMap Datum} {source : String}

theorem exists_check_iff :
    (∃ settings, check (entriesOf raw) source = .ok settings) ↔
      ∀ (k : Setting) d, raw.get? k.name = some d → k.Takes d := by
  have hall : (∃ settings, check (entriesOf raw) source = .ok settings) ↔
      ∃ us, Setting.all.mapM (Setting.verdict raw source) = .ok us := by
    rw [exists_ok_iff, exists_ok_iff, ← failsBy_map (f := fun _ => ()), map_check, failsBy_map]
  rw [hall, exists_mapM_ok_iff]
  simp only [Setting.exists_verdict_iff, Setting.mem_all, true_imp_iff]

theorem failsBy_check {bad : SettingsFailure → Prop} :
    FailsBy bad (check (entriesOf raw) source) ↔
      ∃ k d, Setting.IsFirstRefused raw k d ∧ FailsBy bad (k.refusal source d) := by
  rw [← failsBy_map (f := fun _ => ()), map_check, failsBy_map, failsBy_mapM]
  -- Checking stops at the first verdict that fails, and the ones before it are what is taken.
  simp only [Setting.exists_verdict_iff, Setting.failsBy_verdict]
  constructor
  · rintro ⟨before, k, behind, hall, hbefore, d, hd, hrefused, hfails⟩
    exact ⟨k, d, ⟨hd, hrefused, before, behind, hall, hbefore⟩, hfails⟩
  · rintro ⟨k, d, ⟨hd, hrefused, before, behind, hall, hbefore⟩, hfails⟩
    exact ⟨before, k, behind, hall, hbefore, d, hd, hrefused, hfails⟩

/-- A mapping with names for keys gives settings exactly if every datum that is given for a setting
is documented or tolerated. Otherwise the first setting that is refused is reported, with the source
of the mapping, unless its datum cannot be reported. -/
theorem outcome_ofEntries (raw : NameMap Datum) (source : String) :
    ((∃ settings, (ofEntries (entriesOf raw) source).1 = .ok settings) ↔
      ∀ (k : Setting) d, raw.get? k.name = some d → k.Documents d ∨ k.Tolerates d) ∧
    ∀ failure, (ofEntries (entriesOf raw) source).1 = .error failure ↔
      ∃ k d, Setting.IsFirstRefused raw k d ∧
        ((∃ fault, k.Stops d fault ∧ k.report d = .error fault ∧ failure = .method fault) ∨
          (∀ fault, ¬ k.Stops d fault) ∧
            ∃ found, k.report d = .ok found ∧ failure = .invalid ⟨k.problem found, source⟩) := by
  have herror (failure : SettingsFailure) :
      check (entriesOf raw) source = .error failure ↔
        FailsBy (failure = ·) (check (entriesOf raw) source) := by
    cases check (entriesOf raw) source <;> simp [eq_comm]
  rw [fst_ofEntries]
  refine ⟨exists_check_iff, fun failure => ?_⟩
  rw [herror, failsBy_check]
  simp only [Setting.failsBy_refusal]

/-- A list is no mapping of templates, but an empty one is tolerated. -/
example : (ofEntries [(.text "templates", .list [])] "cfg.yaml").1 = .ok {} := by
  rfl

end Settings

end TextTemplate
