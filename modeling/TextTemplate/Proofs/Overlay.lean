import TextTemplate.Proofs.Documented
import TextTemplate.Proofs.History
import TextTemplate.Proofs.UnknownKeys

/-! Settings as an overlay. What a mapping gives for a setting replaces the default, and nothing
else in the mapping matters. The mapping that gives just these settings leads back to them, and an
engine can be made of them unless one of their templates does not compile. -/

namespace TextTemplate

namespace Settings

/-- Templates as the entries of the map that gives them. -/
def templateEntries (templates : NameMap String) : List (Datum × Datum) :=
  templates.map fun entry => (.text entry.1, .text entry.2)

/-- Settings as what a mapping gives for them. -/
def given (s : Settings) : NameMap Datum :=
  [("max_depth", .integer s.maxDepth), ("autoescape", .text s.autoescape),
    ("strict_conditions", .truth s.strictConditions),
    ("default_formatter", .text s.defaultFormatter),
    ("templates", .map (templateEntries s.templates))]

/-- Each setting is what the mapping gives for it, and the default where it gives nothing. The way
of escaping may be given as something that equals its name. -/
structure Overlays (s : Settings) (raw : NameMap Datum) : Prop where
  maxDepth_eq : (raw.get? "max_depth").getD (.integer 64) = .integer s.maxDepth
  autoescape_eq :
    equalText? ((raw.get? "autoescape").getD (.text "html")) = .ok (some s.autoescape)
  strictConditions_eq :
    (raw.get? "strict_conditions").getD (.truth false) = .truth s.strictConditions
  defaultFormatter_eq :
    (raw.get? "default_formatter").getD (.text "default") = .text s.defaultFormatter
  templates_eq : match raw.get? "templates" with
    | none => s.templates = []
    | some d => isNothing d = .ok true ∧ s.templates = [] ∨
        isNothing d = .ok false ∧ d = .map (templateEntries s.templates)

/-- What the settings of every mapping keep to. That templates are texts under names is said by
their type. -/
structure IsValid (s : Settings) : Prop where
  one_le_maxDepth : 1 ≤ s.maxDepth
  autoescape_mem : s.autoescape = "html" ∨ s.autoescape = "none"
  defaultFormatter_ne : s.defaultFormatter ≠ ""

section Checks

variable {source : String} {d : Datum} {raw : NameMap Datum} {s : Settings}

theorem checkMaxDepth_eq_ok_iff {n : Int} :
    checkMaxDepth source d = .ok n ↔ d = .integer n ∧ 1 ≤ n := by
  constructor
  · intro h
    by_cases htakes : Setting.maxDepth.Takes d
    · obtain ⟨m, rfl, hm⟩ | htolerates := htakes
      · rw [checkMaxDepth, if_pos hm] at h
        obtain rfl := Except.ok.inj h
        exact ⟨rfl, hm⟩
      · exact htolerates.elim
    · rw [checkMaxDepth_of_not_takes htakes] at h
      exact (refuseDatum_ne_ok _ _ _ _ h).elim
  · rintro ⟨rfl, hn⟩
    exact if_pos hn

theorem checkAutoescape_eq_ok_iff {mode : String} : checkAutoescape source d = .ok mode ↔
    equalText? d = .ok (some mode) ∧ (mode = "html" ∨ mode = "none") := by
  constructor
  · intro h
    obtain ⟨hequal, hmode⟩ := of_checkAutoescape h
    exact ⟨hequal, EscapeMode.isSome_ofName?.mp hmode⟩
  · rintro ⟨hequal, hmode⟩
    rw [checkAutoescape, hequal]
    obtain rfl | rfl := hmode <;> rfl

theorem checkStrictConditions_eq_ok_iff {b : Bool} :
    checkStrictConditions source d = .ok b ↔ d = .truth b := by
  constructor
  · intro h
    by_cases htakes : Setting.strictConditions.Takes d
    · obtain ⟨c, rfl⟩ | htolerates := htakes
      · obtain rfl := Except.ok.inj h
        rfl
      · exact htolerates.elim
    · rw [checkStrictConditions_of_not_takes htakes] at h
      exact (refuseDatum_ne_ok _ _ _ _ h).elim
  · rintro rfl
    rfl

theorem checkDefaultFormatter_eq_ok_iff {name : String} :
    checkDefaultFormatter source d = .ok name ↔ d = .text name ∧ name ≠ "" := by
  constructor
  · intro h
    by_cases htakes : Setting.defaultFormatter.Takes d
    · obtain ⟨text, rfl, htext⟩ | htolerates := htakes
      · rw [checkDefaultFormatter, if_neg htext] at h
        obtain rfl := Except.ok.inj h
        exact ⟨rfl, htext⟩
      · exact htolerates.elim
    · rw [checkDefaultFormatter_of_not_takes htakes] at h
      cases h
  · rintro ⟨rfl, hname⟩
    exact if_neg hname

theorem mapM_templateEntry?_eq_some_iff {entries : List (Datum × Datum)}
    {templates : NameMap String} :
    entries.mapM templateEntry? = some templates ↔ entries = templateEntries templates := by
  induction entries generalizing templates with
  | nil => cases templates <;> simp [templateEntries]
  | cons entry entries ih =>
    rw [List.mapM_cons]
    constructor
    · intro h
      obtain ⟨template, htemplate, h⟩ := Option.bind_eq_some_iff.mp h
      obtain ⟨rest, hrest, h⟩ := Option.bind_eq_some_iff.mp h
      obtain rfl := Option.some.inj h
      obtain ⟨name, text, rfl⟩ := exists_templateEntry_iff.mp ⟨template, htemplate⟩
      obtain rfl := Option.some.inj htemplate
      rw [ih.mp hrest]
      rfl
    · intro h
      cases templates with
      | nil => cases h
      | cons template rest =>
        obtain ⟨rfl, hrest⟩ := List.cons.inj h
        rw [ih.mpr hrest]
        rfl

theorem checkTemplates_eq_ok_iff {templates : NameMap String} :
    checkTemplates source d = .ok templates ↔
      isNothing d = .ok true ∧ templates = [] ∨
        isNothing d = .ok false ∧ d = .map (templateEntries templates) := by
  constructor
  · intro h
    unfold checkTemplates at h
    obtain ⟨nothing, hnothing, h⟩ := bind_eq_ok.mp h
    rw [ask_eq_ok_iff] at hnothing
    cases nothing with
    | true => exact .inl ⟨hnothing, (Except.ok.inj h).symm⟩
    | false =>
      refine .inr ⟨hnothing, ?_⟩
      rw [if_neg Bool.false_ne_true] at h
      split at h
      · rename_i entries
        split at h
        · rename_i found hfound
          obtain rfl : found = templates := Except.ok.inj h
          rw [mapM_templateEntry?_eq_some_iff.mp hfound]
        · cases h
      · cases h
  · rintro (⟨hnothing, rfl⟩ | ⟨-, rfl⟩)
    · exact checkTemplates_of_isNothing hnothing
    · exact checkTemplates_map (mapM_templateEntry?_eq_some_iff.mpr rfl)

section Checked

variable {α : Type} {name : String} {check : Datum → Checking α} {default a : α}

theorem checked_eq_ok_iff : checked (entriesOf raw) name check default = .ok a ↔
    match raw.get? name with
    | some d => check d = .ok a
    | none => default = a := by
  rw [checked, given?_entriesOf]
  cases raw.get? name with
  | some d => exact Iff.rfl
  | none => simp

theorem getD_of_checked {P : Datum → α → Prop} (embed : α → Datum)
    (h : checked (entriesOf raw) name check default = .ok a)
    (hcheck : ∀ d, check d = .ok a → P d a) (hdefault : P (embed default) default) :
    P ((raw.get? name).getD (embed default)) a := by
  rw [checked_eq_ok_iff] at h
  cases hd : raw.get? name with
  | some d =>
    rw [hd] at h
    exact hcheck d h
  | none =>
    rw [hd] at h
    exact h ▸ hdefault

theorem holds_of_checked {P : α → Prop}
    (h : checked (entriesOf raw) name check default = .ok a)
    (hcheck : ∀ d, check d = .ok a → P a) (hdefault : P default) : P a := by
  rw [checked_eq_ok_iff] at h
  cases hd : raw.get? name with
  | some d =>
    rw [hd] at h
    exact hcheck d h
  | none =>
    rw [hd] at h
    exact h ▸ hdefault

end Checked

/-- A mapping gives these settings exactly if each check gives its part of them. -/
theorem check_eq_ok_iff : check (entriesOf raw) source = .ok s ↔
    checked (entriesOf raw) "schema_version" (checkSchema source) () = .ok () ∧
    checked (entriesOf raw) "max_depth" (checkMaxDepth source) 64 = .ok s.maxDepth ∧
    checked (entriesOf raw) "autoescape" (checkAutoescape source) "html" = .ok s.autoescape ∧
    checked (entriesOf raw) "strict_conditions" (checkStrictConditions source) false =
      .ok s.strictConditions ∧
    checked (entriesOf raw) "default_formatter" (checkDefaultFormatter source) "default" =
      .ok s.defaultFormatter ∧
    checked (entriesOf raw) "templates" (checkTemplates source) [] = .ok s.templates := by
  constructor
  · intro h
    obtain ⟨⟨⟩, hschema, h⟩ := bind_eq_ok.mp h
    obtain ⟨maxDepth, hmaxDepth, h⟩ := bind_eq_ok.mp h
    obtain ⟨autoescape, hautoescape, h⟩ := bind_eq_ok.mp h
    obtain ⟨strictConditions, hconditions, h⟩ := bind_eq_ok.mp h
    obtain ⟨defaultFormatter, hformatter, h⟩ := bind_eq_ok.mp h
    obtain ⟨templates, htemplates, h⟩ := bind_eq_ok.mp h
    obtain rfl := Except.ok.inj h
    exact ⟨hschema, hmaxDepth, hautoescape, hconditions, hformatter, htemplates⟩
  · rintro ⟨hschema, hmaxDepth, hautoescape, hconditions, hformatter, htemplates⟩
    refine bind_eq_ok.mpr ⟨(), hschema, ?_⟩
    refine bind_eq_ok.mpr ⟨_, hmaxDepth, ?_⟩
    refine bind_eq_ok.mpr ⟨_, hautoescape, ?_⟩
    refine bind_eq_ok.mpr ⟨_, hconditions, ?_⟩
    refine bind_eq_ok.mpr ⟨_, hformatter, ?_⟩
    exact bind_eq_ok.mpr ⟨_, htemplates, rfl⟩

theorem overlays_of_check (h : check (entriesOf raw) source = .ok s) : s.Overlays raw := by
  obtain ⟨-, hmaxDepth, hautoescape, hconditions, hformatter, htemplates⟩ := check_eq_ok_iff.mp h
  constructor
  · exact getD_of_checked (P := (· = .integer ·)) .integer hmaxDepth
      (fun d hd => (checkMaxDepth_eq_ok_iff.mp hd).1) rfl
  · exact getD_of_checked (P := fun d mode => equalText? d = .ok (some mode)) .text hautoescape
      (fun d hd => (checkAutoescape_eq_ok_iff.mp hd).1) rfl
  · exact getD_of_checked (P := (· = .truth ·)) .truth hconditions
      (fun d hd => checkStrictConditions_eq_ok_iff.mp hd) rfl
  · exact getD_of_checked (P := (· = .text ·)) .text hformatter
      (fun d hd => (checkDefaultFormatter_eq_ok_iff.mp hd).1) rfl
  · rw [checked_eq_ok_iff] at htemplates
    cases hd : raw.get? "templates" with
    | some d =>
      rw [hd] at htemplates
      exact checkTemplates_eq_ok_iff.mp htemplates
    | none =>
      rw [hd] at htemplates
      exact htemplates.symm

theorem isValid_of_check (h : check (entriesOf raw) source = .ok s) : s.IsValid := by
  obtain ⟨-, hmaxDepth, hautoescape, -, hformatter, -⟩ := check_eq_ok_iff.mp h
  constructor
  · refine holds_of_checked (P := (1 ≤ ·)) hmaxDepth ?_ (by decide)
    exact fun d hd => (checkMaxDepth_eq_ok_iff.mp hd).2
  · refine holds_of_checked (P := fun mode => mode = "html" ∨ mode = "none") hautoescape ?_ ?_
    · exact fun d hd => (checkAutoescape_eq_ok_iff.mp hd).2
    · exact .inl rfl
  · refine holds_of_checked (P := (· ≠ "")) hformatter ?_ (by decide)
    exact fun d hd => (checkDefaultFormatter_eq_ok_iff.mp hd).2

/-- Settings that are valid come back from the mapping that gives them. -/
theorem check_given (h : s.IsValid) (source : String) :
    check (entriesOf s.given) source = .ok s := by
  rw [check_eq_ok_iff]
  refine ⟨rfl, ?_, ?_, ?_, ?_, ?_⟩
  · exact checked_eq_ok_iff.mpr (checkMaxDepth_eq_ok_iff.mpr ⟨rfl, h.one_le_maxDepth⟩)
  · exact checked_eq_ok_iff.mpr (checkAutoescape_eq_ok_iff.mpr ⟨rfl, h.autoescape_mem⟩)
  · exact checked_eq_ok_iff.mpr (checkStrictConditions_eq_ok_iff.mpr rfl)
  · exact checked_eq_ok_iff.mpr (checkDefaultFormatter_eq_ok_iff.mpr ⟨rfl, h.defaultFormatter_ne⟩)
  · refine checked_eq_ok_iff.mpr (checkTemplates_eq_ok_iff.mpr ?_)
    cases hs : s.templates with
    | nil => exact .inl ⟨rfl, rfl⟩
    | cons template templates => exact .inr ⟨rfl, rfl⟩

end Checks

theorem unknownNames_entriesOf (raw : NameMap Datum) :
    unknownNames (entriesOf raw) = raw.names.filter fun name => !knownNames.contains name := by
  have htext : textKey? ∘ Datum.text = some := rfl
  have hkeys : (entriesOf raw).map Prod.fst = raw.names.map Datum.text := by
    rw [entriesOf, NameMap.names, List.map_map, List.map_map]
    rfl
  rw [unknownNames, unknownKeys, hkeys, List.filter_map, List.filterMap_map, htext,
    List.filterMap_some]
  rfl

theorem ofEntries_given {s : Settings} (h : s.IsValid) (source : String) :
    ofEntries (entriesOf s.given) source = (.ok s, []) := by
  have hknown : unknownEntries (entriesOf s.given) = .ok [] := rfl
  rw [ofEntries, hknown]
  dsimp only
  rw [check_given h]

end Settings

namespace Registries

variable {settings : Settings}

theorem addSource_eq (r : Registries) (entry : String × String) :
    addSource settings r entry = (compiled settings entry.2 entry.1).map fun t =>
      { r with library := r.library.put entry.1 t } := by
  rw [addSource, serve, registerSource_eq, compiled]
  cases Template.compile entry.2 entry.1 settings.maxDepth <;> rfl

/-- Registering texts one by one fails as compiling them one by one. -/
theorem failsBy_addSources {bad : EngineFault → Prop} {entries : List (String × String)}
    (r : Registries) : FailsBy bad (entries.foldlM (addSource settings) r) ↔
      FailsBy bad (entries.mapM fun entry => compiled settings entry.2 entry.1) := by
  induction entries generalizing r with
  | nil => simp [pure, Except.pure]
  | cons entry entries ih =>
    rw [List.foldlM_cons, List.mapM_cons, addSource_eq]
    cases hcompiled : compiled settings entry.2 entry.1 with
    | error fault =>
      rw [failsBy_bind, failsBy_bind]
      simp [Except.map]
    | ok t =>
      rw [failsBy_ok_bind, failsBy_bind_pure]
      exact ih _

theorem compiled_eq_error_iff {entry : String × String} {fault : EngineFault} :
    compiled settings entry.2 entry.1 = .error fault ↔
      ∃ error, Template.compile entry.2 entry.1 settings.maxDepth = .error error ∧
        fault = .compile error := by
  rw [compiled]
  cases Template.compile entry.2 entry.1 settings.maxDepth with
  | ok t => simp [Except.mapError]
  | error error => simp [Except.mapError, eq_comm]

theorem compiled_eq_ok_iff {entry : String × String} {t : Template} :
    compiled settings entry.2 entry.1 = .ok t ↔
      Template.compile entry.2 entry.1 settings.maxDepth = .ok t := by
  rw [compiled]
  cases Template.compile entry.2 entry.1 settings.maxDepth <;> simp [Except.mapError]

end Registries

namespace Engine

/-- The first template of the settings that does not compile, with its error. -/
def IsFirstFault (s : Settings) (error : CompileError) : Prop :=
  ∃ before entry behind, s.templates = before ++ entry :: behind ∧
    (∀ other ∈ before, ∃ t, Template.compile other.2 other.1 s.maxDepth = .ok t) ∧
    Template.compile entry.2 entry.1 s.maxDepth = .error error

theorem make_eq_error_iff {s : Settings} (h : s.IsValid) {fault : EngineFault} :
    (make s).1 = .error fault ↔ ∃ error, IsFirstFault s error ∧ fault = .compile error := by
  obtain ⟨mode, hmode⟩ : ∃ mode, FormatterRegistry.ofModeName s.autoescape = .ok mode := by
    obtain hhtml | hnone := h.autoescape_mem
    · exact ⟨_, by rw [hhtml]; rfl⟩
    · exact ⟨_, by rw [hnone]; rfl⟩
  have hregistries : (make s).1 = .error fault ↔ FailsBy (· = fault) (Registries.make s) := by
    have hmake := make_eq s
    cases hr : Registries.make s with
    | error other =>
      rw [hr] at hmake
      rw [hmake, failsBy_error, Except.error.injEq]
    | ok r =>
      rw [hr] at hmake
      obtain ⟨e, he, -⟩ := hmake
      simp [he]
  have hfold : FailsBy (· = fault) (Registries.make s) ↔
      FailsBy (· = fault) (s.templates.mapM fun entry =>
        Registries.compiled s entry.2 entry.1) := by
    rw [Registries.make, hmode]
    exact Registries.failsBy_addSources _
  rw [hregistries, hfold, failsBy_mapM]
  constructor
  · rintro ⟨before, entry, behind, htemplates, hbefore, failure, hfailure, rfl⟩
    obtain ⟨error, hcompile, rfl⟩ := Registries.compiled_eq_error_iff.mp hfailure
    simp only [Registries.compiled_eq_ok_iff] at hbefore
    exact ⟨error, ⟨before, entry, behind, htemplates, hbefore, hcompile⟩, rfl⟩
  · rintro ⟨error, ⟨before, entry, behind, htemplates, hbefore, hcompile⟩, rfl⟩
    refine ⟨before, entry, behind, htemplates, ?_, _, ?_, rfl⟩
    · simp only [Registries.compiled_eq_ok_iff]
      exact hbefore
    · exact Registries.compiled_eq_error_iff.mpr ⟨error, hcompile, rfl⟩

end Engine

namespace Settings

/-- What a mapping gives for the settings is all that counts in it, and lies over the defaults. Its
other names are listed in one warning, whatever comes of the settings. Settings that come of it are
valid: the mapping that gives just them leads back to them, and an engine of them can be made unless
one of their templates does not compile. -/
theorem ofEntries_overlays (raw : NameMap Datum) (source : String) :
    (∀ raw' : NameMap Datum, (∀ k : Setting, raw'.get? k.name = raw.get? k.name) →
      (ofEntries (entriesOf raw') source).1 = (ofEntries (entriesOf raw) source).1) ∧
    (∃ listed : List String,
      listed.Perm (raw.names.filter fun name => !knownNames.contains name) ∧
      listed.Pairwise (· ≤ ·) ∧
      (ofEntries (entriesOf raw) source).2 =
        if listed = [] then [] else [unknownWarning listed]) ∧
    ∀ s, (ofEntries (entriesOf raw) source).1 = .ok s →
      s.Overlays raw ∧ s.IsValid ∧
      (∀ source', ofEntries (entriesOf s.given) source' = (.ok s, [])) ∧
      ∀ fault, (Engine.make s).1 = .error fault ↔
        ∃ error, Engine.IsFirstFault s error ∧ fault = .compile error := by
  refine ⟨?_, ?_, ?_⟩
  · intro raw' hraw
    rw [fst_ofEntries, fst_ofEntries]
    apply check_congr
    intro k
    rw [given?_entriesOf, given?_entriesOf, hraw k]
  · have hlists : ListsUnknown (entriesOf raw) := by
      intro entry hentry _
      obtain ⟨named, -, rfl⟩ := List.mem_map.mp hentry
      exact ⟨named.1, rfl⟩
    obtain ⟨listed, hperm, hsorted, hentries⟩ := exists_listed hlists
    rw [unknownNames_entriesOf] at hperm
    exact ⟨listed, hperm, hsorted, by rw [ofEntries, hentries]⟩
  · intro s hs
    rw [fst_ofEntries] at hs
    have hvalid := isValid_of_check hs
    exact ⟨overlays_of_check hs, hvalid, ofEntries_given hvalid, fun fault =>
      Engine.make_eq_error_iff hvalid⟩

/-- Gives a bound and a template that does not compile, among names of no setting. -/
def mixedRaw : NameMap Datum :=
  [("zeta", .null), ("max_depth", .integer 3), ("alpha", .truth true),
    ("templates", .map [(.text "a", .text "x"), (.text "b", .text "\x7b\x7b")])]

/-- Gives the same for the settings. -/
def otherRaw : NameMap Datum :=
  [("templates", .map [(.text "a", .text "x"), (.text "b", .text "\x7b\x7b")]),
    ("max_depth", .integer 3), ("omega", .list [])]

def mixedSettings : Settings :=
  { maxDepth := 3, templates := [("a", "x"), ("b", "\x7b\x7b")] }

/-- Both mappings give the same settings, which lead back to themselves. The second template stops
an engine of them. -/
theorem ofEntries_overlays_mixed :
    (ofEntries (entriesOf mixedRaw) "cfg.yaml").1 = .ok mixedSettings ∧
    (ofEntries (entriesOf otherRaw) "cfg.yaml").1 = .ok mixedSettings ∧
    ofEntries (entriesOf mixedSettings.given) "cfg.yaml" = (.ok mixedSettings, []) ∧
    (Engine.make mixedSettings).1 =
      .error (.compile (.lex ⟨.unterminatedDirective, ⟨0, 1, 1⟩⟩)) := by
  have hsettings : (ofEntries (entriesOf mixedRaw) "cfg.yaml").1 = .ok mixedSettings := by rfl
  have hsame (k : Setting) : otherRaw.get? k.name = mixedRaw.get? k.name := by cases k <;> rfl
  obtain ⟨hcongr, -, hsuccess⟩ := ofEntries_overlays mixedRaw "cfg.yaml"
  obtain ⟨-, -, hgiven, hfault⟩ := hsuccess mixedSettings hsettings
  refine ⟨hsettings, (hcongr otherRaw hsame).trans hsettings, hgiven "cfg.yaml", ?_⟩
  rw [hfault]
  refine ⟨_, ⟨[("a", "x")], ("b", "\x7b\x7b"), [], rfl, ?_, ?_⟩, rfl⟩
  · intro other hother
    obtain rfl := List.mem_singleton.mp hother
    exact ⟨⟨"a", [.text ⟨0, 1, 1⟩ "x"]⟩, by cbv⟩
  · cbv

end Settings

end TextTemplate
