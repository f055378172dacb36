import TextTemplate.Proofs.UnknownKeys
import TextTemplate.Yaml.Document

/-! Documents that hold no mapping. One is refused in its file, unless it counts as nothing: null
stands for the empty mapping, and so do false, zero, the empty text and the empty list. What reads
the documents does not matter. -/

namespace TextTemplate

/-- Null, and the other data but the empty mapping that count as nothing. -/
inductive Datum.IsVoid : Datum → Prop
  | null : IsVoid .null
  | truth : IsVoid (.truth false)
  | integer : IsVoid (.integer 0)
  | real {x : Float} (h : (x == 0) = true) : IsVoid (.real x)
  | text : IsVoid (.text "")
  | list : IsVoid (.list [])
  | tuple : IsVoid (.tuple [])
  | sequence : IsVoid (.value (.sequence []))
  | record : IsVoid (.value (.record []))
  | foreign {thing : Foreign} (h : thing.isTrue = .ok false) : IsVoid (.foreign thing)

/-- A foreign thing that does not say whether it counts as nothing. -/
inductive Datum.IsUndecided : MethodFault → Datum → Prop
  | foreign {thing : Foreign} {fault : MethodFault} (h : thing.isTrue = .error fault) :
      IsUndecided fault (.foreign thing)

namespace Settings

section Nothing

variable {d : Datum}

theorem isNothing_eq_true_iff : isNothing d = .ok true ↔ d.IsVoid ∨ d = .map [] := by
  constructor
  · intro hnothing
    cases d with
    | null => exact .inl .null
    | truth b =>
      obtain rfl : b = false := by simpa [isNothing] using hnothing
      exact .inl .truth
    | integer n =>
      obtain rfl : n = 0 := by simpa [isNothing] using hnothing
      exact .inl .integer
    | real x => exact .inl (.real (Except.ok.inj hnothing))
    | text s =>
      obtain rfl : s = "" := by simpa [isNothing] using hnothing
      exact .inl .text
    | list items =>
      obtain rfl := List.isEmpty_iff.mp (Except.ok.inj hnothing)
      exact .inl .list
    | tuple items =>
      obtain rfl := List.isEmpty_iff.mp (Except.ok.inj hnothing)
      exact .inl .tuple
    | map entries =>
      obtain rfl := List.isEmpty_iff.mp (Except.ok.inj hnothing)
      exact .inr rfl
    | value v =>
      cases v with
      | sequence items =>
        obtain rfl := List.isEmpty_iff.mp (Except.ok.inj hnothing)
        exact .inl .sequence
      | record fields =>
        obtain rfl := List.isEmpty_iff.mp (Except.ok.inj hnothing)
        exact .inl .record
      | scalar | absent => cases hnothing
    | date => cases hnothing
    | foreign thing =>
      refine .inl (.foreign ?_)
      cases htrue : thing.isTrue with
      | error fault => simp [isNothing, htrue, Except.map] at hnothing
      | ok b => simpa [isNothing, htrue, Except.map] using hnothing
  · rintro (hvoid | rfl)
    · cases hvoid with
      | real hx => exact congrArg Except.ok hx
      | foreign h => rw [isNothing, h]; rfl
      | null | truth | integer | text | list | tuple | sequence | record => rfl
    · rfl

theorem isNothing_eq_error_iff {fault : MethodFault} :
    isNothing d = .error fault ↔ d.IsUndecided fault := by
  constructor
  · intro hnothing
    cases d with
    | foreign thing =>
      refine .foreign ?_
      cases htrue : thing.isTrue with
      | error fault' => simpa [isNothing, htrue, Except.map] using hnothing
      | ok b => simp [isNothing, htrue, Except.map] at hnothing
    | value v => cases v <;> cases hnothing
    | _ => cases hnothing
  · rintro ⟨h⟩
    rw [isNothing, h]
    rfl

end Nothing

/-- The check of a mapping never complains that there is none. -/
theorem check_ne_notMapping {raw : List (Datum × Datum)} {source path : String} :
    check raw source ≠ .error (.invalid ⟨.notMapping, path⟩) := by
  intro h
  obtain ⟨k, d, -, ⟨_, -, -, hfailure⟩ | ⟨-, found, -, hfailure⟩⟩ := check_eq_error_iff.mp h
  · cases hfailure
  · cases k <;> cases hfailure

theorem ofEntries_ne_notMapping {raw : List (Datum × Datum)} {source path : String} :
    (ofEntries raw source).1 ≠ .error (.invalid ⟨.notMapping, path⟩) := by
  by_cases hlists : ListsUnknown raw
  · obtain ⟨listed, -, -, hentries⟩ := exists_listed hlists
    rw [ofEntries, hentries]
    exact check_ne_notMapping
  · obtain ⟨fault, hfault⟩ := unknownEntries_of_not_lists hlists
    rw [ofEntries, hfault]
    rintro ⟨⟩

section Documents

variable {document : Datum} {path : String}

theorem ofDocument_map (raw : List (Datum × Datum)) (path : String) :
    (ofDocument (.map raw) path).1 = (ofEntries raw path).1 := by
  cases raw <;> rfl

theorem ofDocument_of_isVoid (h : document.IsVoid) : (ofDocument document path).1 = .ok {} := by
  have hnothing : isNothing document = .ok true := isNothing_eq_true_iff.mpr (.inl h)
  unfold ofDocument
  rw [hnothing]
  rfl

theorem ofDocument_of_isUndecided {fault : MethodFault} (h : document.IsUndecided fault) :
    (ofDocument document path).1 = .error (.method fault) := by
  have hnothing : isNothing document = .error fault := isNothing_eq_error_iff.mpr h
  unfold ofDocument
  rw [hnothing]

theorem ofDocument_of_not_isVoid (hmap : ∀ raw, document ≠ .map raw) (hvoid : ¬ document.IsVoid)
    (hdecided : ∀ fault, ¬ document.IsUndecided fault) :
    (ofDocument document path).1 = .error (.invalid ⟨.notMapping, path⟩) := by
  unfold ofDocument
  cases hnothing : isNothing document with
  | error fault => exact absurd (isNothing_eq_error_iff.mp hnothing) (hdecided fault)
  | ok nothing =>
    cases nothing with
    | true =>
      exact ((isNothing_eq_true_iff.mp hnothing).elim hvoid (hmap [])).elim
    | false =>
      cases document with
      | map raw => exact absurd rfl (hmap raw)
      | _ => rfl

/-- A document is a mapping, counts as nothing, does not say whether it does, or is refused. -/
theorem outcome_ofDocument (document : Datum) (path : String) :
    (∃ raw, document = .map raw ∧ (ofDocument document path).1 = (ofEntries raw path).1) ∨
    (∀ raw, document ≠ .map raw) ∧
      (document.IsVoid ∧ (ofDocument document path).1 = .ok {} ∨
        (∃ fault, document.IsUndecided fault ∧
          (ofDocument document path).1 = .error (.method fault)) ∨
        ¬ document.IsVoid ∧ (∀ fault, ¬ document.IsUndecided fault) ∧
          (ofDocument document path).1 = .error (.invalid ⟨.notMapping, path⟩)) := by
  by_cases hmap : ∃ raw, document = .map raw
  · obtain ⟨raw, rfl⟩ := hmap
    exact .inl ⟨raw, rfl, ofDocument_map raw path⟩
  · refine .inr ⟨fun raw h => hmap ⟨raw, h⟩, ?_⟩
    by_cases hvoid : document.IsVoid
    · exact .inl ⟨hvoid, ofDocument_of_isVoid hvoid⟩
    · by_cases hundecided : ∃ fault, document.IsUndecided fault
      · obtain ⟨fault, hundecided⟩ := hundecided
        exact .inr (.inl ⟨fault, hundecided, ofDocument_of_isUndecided hundecided⟩)
      · have hdecided : ∀ fault, ¬ document.IsUndecided fault := fun fault h =>
          hundecided ⟨fault, h⟩
        exact .inr (.inr ⟨hvoid, hdecided,
          ofDocument_of_not_isVoid (fun raw h => hmap ⟨raw, h⟩) hvoid hdecided⟩)

end Documents

section Load

variable {read : Loader} {path : String} {contents : Option String}

theorem load_of_read {text : String} {document : Datum} (h : read text = .ok document)
    (path : String) : load read path (some text) = ofDocument document path := by
  rw [load, h]

theorem load_of_fault {text : String} {fault : LoadFault} (h : read text = .error fault)
    (path : String) : ∃ failure, (load read path (some text)).1 = .error failure ∧
      failure ≠ .invalid ⟨.notMapping, path⟩ := by
  rw [load, h]
  cases fault with
  | malformed | raised => exact ⟨_, rfl, by simp⟩

theorem refused_load_iff :
    (load read path contents).1 = .error (.invalid ⟨.notMapping, path⟩) ↔
      ∃ text document, contents = some text ∧ read text = .ok document ∧
        (∀ raw, document ≠ .map raw) ∧ ¬ document.IsVoid ∧
        ∀ fault, ¬ document.IsUndecided fault := by
  constructor
  · intro h
    cases contents with
    | none => cases h
    | some text =>
      cases hread : read text with
      | error fault =>
        obtain ⟨failure, hload, hne⟩ := load_of_fault hread path
        exact absurd (Except.error.inj (hload.symm.trans h)) hne
      | ok document =>
        rw [load_of_read hread] at h
        obtain ⟨raw, -, hraw⟩ | ⟨hmap, ⟨-, hdefaults⟩ | ⟨fault, -, hfails⟩ | ⟨hvoid, hdecided, -⟩⟩ :=
          outcome_ofDocument document path
        · exact absurd (hraw.symm.trans h) ofEntries_ne_notMapping
        · cases hdefaults.symm.trans h
        · cases hfails.symm.trans h
        · exact ⟨text, document, rfl, hread, hmap, hvoid, hdecided⟩
  · rintro ⟨text, document, rfl, hread, hmap, hvoid, hdecided⟩
    rw [load_of_read hread]
    exact ofDocument_of_not_isVoid hmap hvoid hdecided

theorem defaults_load_iff :
    (load read path contents).1 = .ok {} ↔
      contents = none ∨ ∃ text document, contents = some text ∧ read text = .ok document ∧
        (document.IsVoid ∨ ∃ raw, document = .map raw ∧ (ofEntries raw path).1 = .ok {}) := by
  constructor
  · intro h
    cases contents with
    | none => exact .inl rfl
    | some text =>
      cases hread : read text with
      | error fault =>
        obtain ⟨failure, hload, -⟩ := load_of_fault hread path
        cases hload.symm.trans h
      | ok document =>
        rw [load_of_read hread] at h
        refine .inr ⟨text, document, rfl, hread, ?_⟩
        obtain ⟨raw, hmap, hraw⟩ | ⟨-, ⟨hvoid, -⟩ | ⟨_, -, hfails⟩ | ⟨-, -, hrefused⟩⟩ :=
          outcome_ofDocument document path
        · exact .inr ⟨raw, hmap, hraw.symm.trans h⟩
        · exact .inl hvoid
        · cases hfails.symm.trans h
        · cases hrefused.symm.trans h
  · rintro (rfl | ⟨text, document, rfl, hread, hvoid | ⟨raw, rfl, hraw⟩⟩)
    · rfl
    · rw [load_of_read hread]
      exact ofDocument_of_isVoid hvoid
    · rw [load_of_read hread, ofDocument_map]
      exact hraw

end Load

/-- Whatever reads the documents, one is refused for not being a mapping, with the path of its file,
exactly if it is read as something else that does not count as nothing. The defaults come from a
missing file, from a document that counts as nothing, and from a mapping whose entries give them. -/
theorem load_notMapping_iff (read : Loader) (path : String) (contents : Option String) :
    ((load read path contents).1 = .error (.invalid ⟨.notMapping, path⟩) ↔
      ∃ text document, contents = some text ∧ read text = .ok document ∧
        (∀ raw, document ≠ .map raw) ∧ ¬ document.IsVoid ∧
        ∀ fault, ¬ document.IsUndecided fault) ∧
    ((load read path contents).1 = .ok {} ↔
      contents = none ∨ ∃ text document, contents = some text ∧ read text = .ok document ∧
        (document.IsVoid ∨ ∃ raw, document = .map raw ∧ (ofEntries raw path).1 = .ok {})) ∧
    SettingsProblem.notMapping.message = "YAML must be a mapping" :=
  ⟨refused_load_iff, defaults_load_iff, rfl⟩

/-- An empty list is no mapping, but it counts as nothing. -/
example : (load Yaml.load "stencil.yaml" (some "[]")).1 = .ok {} := by
  cbv

end Settings

end TextTemplate
