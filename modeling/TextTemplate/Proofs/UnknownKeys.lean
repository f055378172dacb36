import TextTemplate.Proofs.Validation

/-! The keys of a mapping that name no setting. Where all of them are text they are listed in one
warning and have no further effect; a key that is no text cannot be listed, and the mapping fails
on it before any setting is looked at. -/

namespace TextTemplate

/-- A map that succeeds on every item gives what it gives item by item. -/
theorem mapM_eq_filterMap {α β : Type} {f : α → Option β} {as : List α}
    (h : ∀ a ∈ as, ∃ b, f a = some b) : as.mapM f = some (as.filterMap f) := by
  induction as with
  | nil => rfl
  | cons a as ih =>
    obtain ⟨⟨b, hb⟩, has⟩ := List.forall_mem_cons.mp h
    rw [List.mapM_cons, ih has, List.filterMap_cons_some hb, hb]
    rfl

namespace Settings

def IsUnknown (key : Datum) : Prop :=
  ∀ k : Setting, keyText? key ≠ some k.name

/-- All the keys that name no setting are text. -/
def ListsUnknown (raw : List (Datum × Datum)) : Prop :=
  ∀ entry ∈ raw, IsUnknown entry.1 → ∃ name, entry.1 = .text name

def namesSetting (key : Datum) : Bool :=
  (keyText? key).any knownNames.contains

def unknownNames (raw : List (Datum × Datum)) : List String :=
  (unknownKeys raw).filterMap textKey?

def withoutUnknown (raw : List (Datum × Datum)) : List (Datum × Datum) :=
  raw.filter fun entry => namesSetting entry.1

def unknownWarning (listed : List String) : LogEntry :=
  let names := String.intercalate ", " listed
  .warning s!"Ignoring unknown config keys: {names}"

/-- What is given under the keys that stand for a text. -/
def named (raw : List (Datum × Datum)) : NameMap Datum :=
  raw.filterMap fun entry => (keyText? entry.1).map fun name => (name, entry.2)

/-- The first setting that is refused cannot be reported, for this reason. -/
def IsStopped (raw : List (Datum × Datum)) (fault : MethodFault) : Prop :=
  ∃ k d, Setting.IsFirstRefused (named raw) k d ∧ k.Stops d fault

/-- There are settings, or an error that is located in the source. -/
def Reported (source : String) (result : Checking Settings) : Prop :=
  (∃ settings, result = .ok settings) ∨ ∃ problem, result = .error (.invalid ⟨problem, source⟩)

section Keys

variable {key : Datum} {raw : List (Datum × Datum)}

theorem textKey?_eq_some_iff {name : String} : textKey? key = some name ↔ key = .text name := by
  cases key <;> simp [textKey?]

theorem mem_knownNames_iff {name : String} :
    name ∈ knownNames ↔ ∃ k : Setting, k.name = name := by
  constructor
  · intro h
    simp only [knownNames, List.mem_cons, List.not_mem_nil, or_false] at h
    obtain rfl | rfl | rfl | rfl | rfl | rfl := h
    · exact ⟨.schemaVersion, rfl⟩
    · exact ⟨.maxDepth, rfl⟩
    · exact ⟨.autoescape, rfl⟩
    · exact ⟨.strictConditions, rfl⟩
    · exact ⟨.defaultFormatter, rfl⟩
    · exact ⟨.templates, rfl⟩
  · rintro ⟨k, rfl⟩
    cases k <;> decide

theorem namesSetting_eq_false_iff : namesSetting key = false ↔ IsUnknown key := by
  rw [← Bool.not_eq_true, namesSetting, Option.any_eq_true, IsUnknown]
  simp only [List.contains_iff_mem, mem_knownNames_iff]
  constructor
  · intro h k hkey
    exact h ⟨k.name, hkey, k, rfl⟩
  · rintro h ⟨name, hkey, k, rfl⟩
    exact h k hkey

theorem mem_unknownKeys_iff :
    key ∈ unknownKeys raw ↔ (∃ entry ∈ raw, entry.1 = key) ∧ IsUnknown key := by
  rw [unknownKeys, List.mem_filter, List.mem_map, ← namesSetting_eq_false_iff]
  simp only [namesSetting, Bool.not_eq_true']

theorem listsUnknown_iff :
    ListsUnknown raw ↔ ∀ key ∈ unknownKeys raw, ∃ name, textKey? key = some name := by
  simp only [mem_unknownKeys_iff, textKey?_eq_some_iff]
  constructor
  · rintro h key ⟨⟨entry, hentry, rfl⟩, hunknown⟩
    exact h entry hentry hunknown
  · intro h entry hentry hunknown
    exact h entry.1 ⟨⟨entry, hentry, rfl⟩, hunknown⟩

theorem unknownKeys_withoutUnknown : unknownKeys (withoutUnknown raw) = [] := by
  rw [List.eq_nil_iff_forall_not_mem]
  intro key hkey
  obtain ⟨⟨entry, hentry, rfl⟩, hunknown⟩ := mem_unknownKeys_iff.mp hkey
  have hknown := (List.mem_filter.mp hentry).2
  rw [namesSetting_eq_false_iff.mpr hunknown] at hknown
  cases hknown

end Keys

section Checks

variable {raw : List (Datum × Datum)} {source : String}

theorem unknownEntries_of_not_lists (h : ¬ ListsUnknown raw) :
    ∃ fault, unknownEntries raw = .error (.keys fault) := by
  rw [listsUnknown_iff, ← exists_mapM_some_iff] at h
  unfold unknownEntries
  split
  · rename_i hnone
    rw [hnone] at h
    exact absurd ⟨[], rfl⟩ h
  · split
    · exact ⟨_, rfl⟩
    · rename_i names hnames
      exact absurd ⟨names, hnames⟩ h

theorem unknownNames_ne_nil (h : ListsUnknown raw) (hne : unknownKeys raw ≠ []) :
    unknownNames raw ≠ [] := by
  obtain ⟨key, hkey⟩ := List.exists_mem_of_ne_nil _ hne
  obtain ⟨name, hname⟩ := listsUnknown_iff.mp h key hkey
  exact List.ne_nil_of_mem (List.mem_filterMap.mpr ⟨key, hkey, hname⟩)

theorem exists_listed (h : ListsUnknown raw) :
    ∃ listed : List String, listed.Perm (unknownNames raw) ∧ listed.Pairwise (· ≤ ·) ∧
      unknownEntries raw = .ok (if listed = [] then [] else
        [unknownWarning listed]) := by
  have hnames := mapM_eq_filterMap (listsUnknown_iff.mp h)
  rw [← unknownNames] at hnames
  have hperm := List.mergeSort_perm (unknownNames raw) fun a b => a ≤ b
  have hsorted : ((unknownNames raw).mergeSort fun a b => a ≤ b).Pairwise
      fun a b => decide (a ≤ b) = true :=
    List.pairwise_mergeSort (fun a b c => by simpa using String.le_trans)
      (fun a b => by simpa using String.le_total a b) _
  refine ⟨_, hperm, by simpa using hsorted, ?_⟩
  unfold unknownEntries
  split
  · rename_i hnone
    simp [unknownNames, hnone]
  · rename_i hne
    have hlisted : (unknownNames raw).mergeSort (fun a b => a ≤ b) ≠ [] := by
      intro hnil
      rw [hnil] at hperm
      exact unknownNames_ne_nil h hne hperm.symm.eq_nil
    rw [hnames, if_neg hlisted]
    rfl

theorem given?_eq_named (name : String) : given? raw name = (named raw).get? name := by
  induction raw with
  | nil => rfl
  | cons entry raw ih =>
    cases hkey : keyText? entry.1 with
    | none =>
      have hnamed : named (entry :: raw) = named raw := by simp [named, hkey]
      rw [hnamed, ← ih]
      simp [given?, hkey]
    | some key =>
      have hnamed : named (entry :: raw) = (key, entry.2) :: named raw := by simp [named, hkey]
      rw [hnamed, NameMap.get?, ← ih]
      by_cases hname : key = name
      · simp [given?, hkey, hname]
      · simp [given?, hkey, hname]

theorem given?_withoutUnknown (k : Setting) :
    given? (withoutUnknown raw) k.name = given? raw k.name := by
  have hknown : knownNames.contains k.name = true :=
    List.contains_iff_mem.mpr (mem_knownNames_iff.mpr ⟨k, rfl⟩)
  have hnames (entry : Datum × Datum) (hentry : keyText? entry.1 = some k.name) :
      namesSetting entry.1 = true := by
    rw [namesSetting, hentry, Option.any_some, hknown]
  unfold given? withoutUnknown
  rw [List.find?_filter]
  congr 2
  funext entry
  by_cases hentry : keyText? entry.1 = some k.name
  · simp [hnames entry hentry, hentry]
  · simp [hentry]

/-- Checking looks at nothing but what is given for the settings. -/
theorem check_congr {raw' : List (Datum × Datum)}
    (h : ∀ k : Setting, given? raw k.name = given? raw' k.name) :
    check raw source = check raw' source := by
  have hschema := h .schemaVersion
  have hmaxDepth := h .maxDepth
  have hautoescape := h .autoescape
  have hconditions := h .strictConditions
  have hformatter := h .defaultFormatter
  have htemplates := h .templates
  simp only [Setting.name] at *
  simp only [check, checked, hschema, hmaxDepth, hautoescape, hconditions, hformatter, htemplates]

theorem check_withoutUnknown : check (withoutUnknown raw) source = check raw source :=
  check_congr given?_withoutUnknown

theorem check_named : check (entriesOf (named raw)) source = check raw source := by
  apply check_congr
  intro k
  rw [given?_entriesOf, given?_eq_named]

theorem check_eq_error_iff {failure : SettingsFailure} :
    check raw source = .error failure ↔
      ∃ k d, Setting.IsFirstRefused (named raw) k d ∧
        ((∃ fault, k.Stops d fault ∧ k.report d = .error fault ∧ failure = .method fault) ∨
          (∀ fault, ¬ k.Stops d fault) ∧
            ∃ found, k.report d = .ok found ∧ failure = .invalid ⟨k.problem found, source⟩) := by
  have hfails : check raw source = .error failure ↔
      FailsBy (failure = ·) (check (entriesOf (named raw)) source) := by
    rw [check_named]
    cases check raw source <;> simp [eq_comm]
  rw [hfails, failsBy_check]
  simp only [Setting.failsBy_refusal]

theorem isStopped_of_check {fault : MethodFault} (h : check raw source = .error (.method fault)) :
    IsStopped raw fault := by
  obtain ⟨k, d, hrefused, ⟨fault, hstops, -, heq⟩ | ⟨-, _, -, heq⟩⟩ := check_eq_error_iff.mp h
  · cases heq
    exact ⟨k, d, hrefused, hstops⟩
  · cases heq

theorem exists_check_eq_method (source : String) {fault : MethodFault} (h : IsStopped raw fault) :
    ∃ fault, check raw source = .error (.method fault) := by
  obtain ⟨k, d, hrefused, hstops⟩ := h
  obtain ⟨fault, hreport⟩ := (k.failsFor_report d).fails hstops
  refine ⟨fault, check_eq_error_iff.mpr ⟨k, d, hrefused, .inl ⟨fault, ?_, hreport, rfl⟩⟩⟩
  exact (k.failsFor_report d).reason_of_eq hreport

theorem reported_check (h : ∀ fault, ¬ IsStopped raw fault) :
    Reported source (check raw source) := by
  cases hcheck : check raw source with
  | ok settings => exact .inl ⟨settings, rfl⟩
  | error failure =>
    obtain ⟨k, d, hrefused, ⟨fault, hstops, -⟩ | ⟨-, found, -, hfailure⟩⟩ :=
      check_eq_error_iff.mp hcheck
    · exact absurd ⟨k, d, hrefused, hstops⟩ (h fault)
    · exact .inr ⟨k.problem found, by rw [hfailure]⟩

end Checks

/-- A mapping gives settings or an error in its source exactly if its unknown keys can be listed and
the first setting that is refused, if there is one, can be reported. Unknown keys that can be listed
are ignored, with one warning if there are any. An unknown key that is no text ends everything
before a setting is looked at. -/
theorem reported_ofEntries_iff (raw : List (Datum × Datum)) (source : String) :
    (Reported source (ofEntries raw source).1 ↔
      ListsUnknown raw ∧ ∀ fault, ¬ IsStopped raw fault) ∧
    (¬ ListsUnknown raw → ∃ fault, ofEntries raw source = (.error (.keys fault), [])) ∧
    (ListsUnknown raw →
      (ofEntries raw source).1 = (ofEntries (withoutUnknown raw) source).1 ∧
      ((∃ fault, IsStopped raw fault) →
        ∃ fault, IsStopped raw fault ∧ (ofEntries raw source).1 = .error (.method fault)) ∧
      ∃ listed : List String, listed.Perm (unknownNames raw) ∧ listed.Pairwise (· ≤ ·) ∧
        (ofEntries raw source).2 = if listed = [] then [] else
          [unknownWarning listed]) := by
  by_cases hlists : ListsUnknown raw
  · obtain ⟨listed, hperm, hsorted, hentries⟩ := exists_listed hlists
    have hraw : (ofEntries raw source).1 = check raw source := by rw [ofEntries, hentries]
    have hknown : (ofEntries (withoutUnknown raw) source).1 = check raw source := by
      rw [ofEntries, unknownEntries, unknownKeys_withoutUnknown]
      exact check_withoutUnknown
    refine ⟨?_, fun h => absurd hlists h, fun _ => ⟨hraw.trans hknown.symm, ?_, listed, hperm,
      hsorted, by rw [ofEntries, hentries]⟩⟩
    · rw [hraw, and_iff_right hlists]
      refine ⟨fun hreported fault hstopped => ?_, reported_check⟩
      obtain ⟨fault, hcheck⟩ := exists_check_eq_method source hstopped
      rw [hcheck] at hreported
      simp [Reported] at hreported
    · rintro ⟨fault, hstopped⟩
      obtain ⟨fault, hcheck⟩ := exists_check_eq_method source hstopped
      exact ⟨fault, isStopped_of_check hcheck, hraw.trans hcheck⟩
  · obtain ⟨fault, hfault⟩ := unknownEntries_of_not_lists hlists
    have hraw : ofEntries raw source = (.error (.keys fault), []) := by rw [ofEntries, hfault]
    refine ⟨?_, fun _ => ⟨fault, hraw⟩, fun h => absurd h hlists⟩
    rw [hraw]
    simp [Reported, hlists]

/-- A number for a key is refused, though the settings themselves are documented. -/
example : (ofEntries [(.integer 404, .text "x"), (.text "max_depth", .integer 5)] "cfg.yaml").1 =
    .error (.keys (.notText 0 "int")) := by
  rfl

end Settings

end TextTemplate
