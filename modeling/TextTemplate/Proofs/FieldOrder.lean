import Mathlib
import TextTemplate.Proofs.Autoescape
import TextTemplate.Proofs.Likeness.Rendering
import TextTemplate.Proofs.LookUp
import TextTemplate.Proofs.Equality

/-! The order of the fields of a record. Only the json formatter tells equal values without real
numbers apart, so that without it they are rendered alike. -/

namespace TextTemplate

namespace Value

/-- The same values, up to the order in which their records hold the fields. -/
inductive Reordered : Value → Value → Prop
  | scalar (a : Scalar) : Reordered (scalar a) (scalar a)
  | sequence {xs ys : List Value} : List.Forall₂ Reordered xs ys →
      Reordered (sequence xs) (sequence ys)
  | record {fs gs : List (String × Value)} : fs.length = gs.length →
      (∀ name, Option.Rel Reordered (NameMap.get? fs name) (NameMap.get? gs name)) →
      Reordered (record fs) (record gs)
  | absent : Reordered absent absent

theorem rel_getElem? {R : Value → Value → Prop} {xs ys : List Value} (h : List.Forall₂ R xs ys)
    (i : Nat) : Option.Rel R xs[i]? ys[i]? := by
  induction h generalizing i with
  | nil => exact .none
  | cons hx _ ih =>
    cases i with
    | zero => exact .some hx
    | succ i => exact ih i

namespace Reordered

variable {v w : Value}

theorem kind_eq (h : Reordered v w) : v.kind = w.kind := by
  cases h <;> rfl

theorem isTruthy_eq (h : Reordered v w) : v.isTruthy = w.isTruthy := by
  cases h with
  | scalar | absent => rfl
  | sequence hitems => cases hitems <;> rfl
  | @record fs gs hlength => cases fs <;> cases gs <;> first | rfl | cases hlength

theorem toText_eq (h : Reordered v w) : v.toText = w.toText := by
  cases h <;> rfl

theorem mapM_toText_eq {xs ys : List Value} (h : List.Forall₂ Reordered xs ys) :
    xs.mapM toText = ys.mapM toText := by
  induction h with
  | nil => rfl
  | cons hx _ ih => rw [List.mapM_cons, List.mapM_cons, hx.toText_eq, ih]

end Reordered

end Value

namespace Memory

variable {m : Memory}

/-- Equal objects hold the same fields, if they hold no real numbers. -/
theorem reordered_of_equal {a b : Nat} (h : m.equal a b = true)
    (hreal : ∀ x, ¬ Value.Within (.scalar (.real x)) (m.read a)) :
    (m.read a).Reordered (m.read b) := by
  induction a using Nat.strongRecOn generalizing b with
  | ind a ih =>
    have hpart (x : Fin a) (y : Nat) (hxy : m.Same x y)
        (hreal : ∀ z, ¬ Value.Within (.scalar (.real z)) (m.read x)) :
        (m.read x).Reordered (m.read y) := by
      obtain hxy | ⟨-, z, hz, -⟩ := same_iff.mp hxy
      · exact ih x x.isLt hxy hreal
      · rw [read_of_scalar hz] at hreal
        exact absurd .self (hreal z)
    have halike := equal_iff.mp h
    generalize ha : m a = x, hb : m b = y at halike
    cases halike with
    | @scalar x y hxy =>
      rw [read_of_scalar ha] at hreal ⊢
      rw [read_of_scalar hb]
      obtain rfl := Scalar.eq_of_equal hxy fun z hz => hreal z (hz ▸ .self)
      exact .scalar x
    | @sequence xs ys hitems =>
      rw [read_of_sequence ha] at hreal ⊢
      rw [read_of_sequence hb]
      refine .sequence (List.forall₂_map_left_iff.mpr (List.forall₂_map_right_iff.mpr ?_))
      rw [List.forall₂_iff_zip] at hitems ⊢
      refine ⟨hitems.1, fun hmem => hpart _ _ (hitems.2 hmem) fun z hz => hreal z ?_⟩
      exact .item (List.mem_map_of_mem (List.of_mem_zip hmem).1) hz
    | @record fs gs hfs hgs hfields =>
      rw [read_of_record ha] at hreal ⊢
      rw [read_of_record hb]
      obtain ⟨hlength, -⟩ := (NameMap.rel_get?_iff hfs hgs).mp hfields
      refine .record (by simpa using hlength) fun name => ?_
      rw [NameMap.get?_map fs (fun x => m.read x), NameMap.get?_map gs (fun y => m.read y)]
      obtain ⟨hsome, hparts⟩ := option_rel_iff.mp (hfields name)
      refine option_rel_iff.mpr ⟨by simpa using hsome, fun v w hv hw => ?_⟩
      obtain ⟨x, hx, rfl⟩ := Option.map_eq_some_iff.mp hv
      obtain ⟨y, hy, rfl⟩ := Option.map_eq_some_iff.mp hw
      refine hpart x y (hparts x y hx hy) fun z hz => hreal z ?_
      exact .field (List.mem_map_of_mem (NameMap.mem_of_get? hx)) hz
    | absent =>
      rw [read_of_absent ha, read_of_absent hb]
      exact .absent

end Memory

namespace Builtin

open Value

variable {v w : Value}

theorem lengthText_eq (h : Reordered v w) : lengthText v = lengthText w := by
  cases h with
  | scalar | absent => rfl
  | sequence hitems => rw [lengthText, lengthText, hitems.length_eq]
  | record hlength => rw [lengthText, lengthText, hlength]

theorem fallbackText_eq (h : Reordered v w) (default : Literal) :
    fallbackText v default = fallbackText w default := by
  rw [fallbackText, fallbackText, h.isTruthy_eq, h.toText_eq]

theorem joinText_eq (h : Reordered v w) (separator : Literal) :
    joinText v separator = joinText w separator := by
  cases h with
  | sequence hitems => simp only [joinText, Reordered.mapM_toText_eq hitems]
  | scalar | record | absent => rfl

theorem pluralText_eq (h : Reordered v w) (singular plural : Literal) :
    pluralText v singular plural = pluralText w singular plural := by
  cases h with
  | sequence hitems => simp only [pluralText, isSingular, hitems.length_eq]
  | scalar | record | absent => rfl

/-- No formatter but the json one looks at the order of the fields. -/
theorem textOf_eq {b : Builtin} (hb : b ≠ .json) (h : Reordered v w) (arguments : List Literal) :
    b.textOf v arguments = b.textOf w arguments := by
  unfold textOf
  split
  case h_4 => exact absurd rfl hb
  all_goals
    first
    | rfl
    | rw [h.toText_eq]
    | rw [lengthText_eq h]
    | rw [fallbackText_eq h]
    | rw [joinText_eq h]
    | rw [pluralText_eq h]

-- The json formatter writes the fields in the order in which the record holds them.
example : json.textOf (.record [("x", .absent), ("y", .absent)]) [] =
      .ok "\x7b\"x\": null, \"y\": null\x7d" ∧
    json.textOf (.record [("y", .absent), ("x", .absent)]) [] =
      .ok "\x7b\"y\": null, \"x\": null\x7d" :=
  ⟨rfl, rfl⟩

end Builtin

theorem FormatterRegistry.exists_ne_json {mode : EscapeMode} {name : String} {f : Formatter}
    (h : (standard mode).get? name = some f) (hname : name ≠ "json") :
    ∃ b : Builtin, b ≠ .json ∧ f = b.formatter := by
  obtain ⟨b, rfl, hb⟩ := exists_builtin_of_get? h
  refine ⟨b, ?_, rfl⟩
  rintro rfl
  rcases hb with hmode | hget
  · cases mode <;> cases hmode
  · have hmem := NameMap.mem_of_get? hget
    exact hname (by simpa [Builtin.table] using hmem)

namespace Correspondence

open Value (Reordered)

/-- Values up to the order of their fields, where the json formatter is not used. -/
def upToOrder (defaultFormatter : String) : Correspondence where
  value := Reordered
  place := Eq
  title := Eq
  format formatter := (formatter.getD ⟨defaultFormatter, []⟩).name ≠ "json"

theorem resolved_elim {x y : Option Value} (h : Option.Rel Reordered x y) (d : String)
    (e : ResolveError) :
    (upToOrder d).Resolved (x.elim (.error e) .ok) (y.elim (.error e) .ok) := by
  cases h with
  | none => exact .error e
  | some hw => exact .ok hw

theorem resolved_step {v w : Value} (h : Reordered v w) (d segment resolved : String) :
    (upToOrder d).Resolved (v.step segment resolved) (w.step segment resolved) := by
  cases h with
  | scalar | absent => exact .error _
  | record _ hfields => exact resolved_elim (hfields segment) d _
  | @sequence xs ys hitems =>
    unfold Value.step
    dsimp only
    split
    · cases readInteger segment with
      | error fault => exact .error _
      | ok index =>
        have hitem : Option.Rel Reordered ((Value.sequence xs).item? index)
            ((Value.sequence ys).item? index) := by
          unfold Value.item?
          dsimp only
          split
          · exact .none
          · exact Value.rel_getElem? hitems index.toNat
        rw [hitems.length_eq]
        exact resolved_elim hitem d _
    · exact .error _

theorem respected_upToOrder {setup : Setup} {mode : EscapeMode}
    (hformatters : setup.formatters = .standard mode)
    (hvalues : ∀ name t, setup.template? name = some t → ∀ position path formatter,
      .value position path formatter ∈ Node.listPreorder t.nodes →
      (upToOrder setup.defaultFormatter).format formatter) :
    (upToOrder setup.defaultFormatter).Respected setup where
  absent := .absent
  integer n := .scalar (.integer n)
  kind h := h.kind_eq
  truthy h := h.isTruthy_eq
  items h := by
    cases h with
    | sequence hitems => exact hitems
  step segment resolved h := resolved_step h _ segment resolved
  run hformat hget h := by
    rw [hformatters] at hget
    obtain ⟨b, hb, rfl⟩ := FormatterRegistry.exists_ne_json hget hformat
    exact congrArg (FormatResult.text <$> ·) (Builtin.textOf_eq hb h _)
  called {name t} ht := ⟨rfl, listNodes_refl (fun _ => rfl) t.nodes (hvalues name t ht)⟩

theorem Interruptions.eq {d : String} {i i' : Interruption}
    (h : (upToOrder d).Interruptions i i') : i = i' := by
  cases h with
  | error hp hname =>
    obtain rfl := hp
    obtain rfl := hname
    rfl
  | integer | crash | limit => rfl

theorem Meanings.eq {d : String} {m m' : Meaning} (h : (upToOrder d).Meanings m m') : m = m' := by
  cases h with
  | done text => rfl
  | stopped text hi => rw [Interruptions.eq hi]

end Correspondence

namespace Template

/-- Equal objects without real numbers are rendered to the same text and stopped by the same
interruption, as long as neither a node nor the default asks for the json formatter. -/
theorem render_eq_of_equal {m : Memory} {a b : Nat} (h : m.equal a b = true)
    (hreal : ∀ x, ¬ Value.Within (.scalar (.real x)) (m.read a))
    (t : Template) (setup : Setup) (mode : EscapeMode)
    (hformatters : setup.formatters = .standard mode) (hdefault : setup.defaultFormatter ≠ "json")
    (hvalues : ∀ position path call, setup.HasNode t (.value position path (some call)) →
      call.name ≠ "json") (limit : Int) :
    (t.render setup limit (m.read a)).text = (t.render setup limit (m.read b)).text ∧
      (t.render setup limit (m.read a)).interruption =
        (t.render setup limit (m.read b)).interruption := by
  have hformats : ∀ u, setup.Uses t u → ∀ position path formatter,
      .value position path formatter ∈ Node.listPreorder u.nodes →
      (Correspondence.upToOrder setup.defaultFormatter).format formatter := by
    intro u hu position path formatter hmem
    cases formatter with
    | none => exact hdefault
    | some call => exact hvalues position path call ⟨u, hu, hmem⟩
  have hrespected := Correspondence.respected_upToOrder hformatters fun name u hu =>
    hformats u (.inr ⟨name, hu⟩)
  have hnodes := Correspondence.listNodes_refl (fun _ => rfl) t.nodes (hformats t (.inl rfl))
  have hmeanings := Correspondence.meanings_template hrespected limit rfl hnodes
    (Memory.reordered_of_equal h hreal)
  obtain ⟨htext, hend⟩ := t.render_eq_meaning setup limit (m.read a)
  obtain ⟨htext', hend'⟩ := t.render_eq_meaning setup limit (m.read b)
  rw [htext, hend, htext', hend', Correspondence.Meanings.eq hmeanings]
  exact ⟨rfl, rfl⟩

/-- Asks for the number of fields, and for a field that may not be there. -/
def asking : Template :=
  ⟨"t", [.value ⟨0, 1, 1⟩ ⟨[], true⟩ (some ⟨"length", []⟩),
    .value ⟨16, 1, 17⟩ ⟨["z"], false⟩ none]⟩

def escapingSetup : Setup := ⟨.standard .html, none, false, "default"⟩

/-- What holds of two fields in one order holds of them in the other. -/
theorem render_eq_of_equal_swapped :
    (asking.render escapingSetup 1 (.record [("y", .integer 2), ("x", .text "1")])).text = "2" ∧
    (asking.render escapingSetup 1 (.record [("y", .integer 2), ("x", .text "1")])).interruption =
      some (.error ⟨.pathNotFound ⟨["z"], false⟩ (.noField "z"), ⟨16, 1, 17⟩, "t"⟩) := by
  have hvalues : ∀ position path call,
      escapingSetup.HasNode asking (.value position path (some call)) → call.name ≠ "json" := by
    rintro position path call ⟨u, rfl | ⟨name, hname⟩, hmem⟩
    · simp only [asking, Node.listPreorder, Node.preorder, List.singleton_append, List.mem_cons,
        Node.value.injEq, Option.some.injEq, reduceCtorEq, and_false, List.not_mem_nil,
        or_false] at hmem
      rw [hmem.2.2]
      decide
    · cases hname
  have hleft : Memory.swapped.read 2 = .record [("x", .text "1"), ("y", .integer 2)] := by cbv
  have hright : Memory.swapped.read 3 = .record [("y", .integer 2), ("x", .text "1")] := by cbv
  have hreal : ∀ x, ¬ Value.Within (.scalar (.real x)) (Memory.swapped.read 2) := by
    simp [hleft, Value.text, Value.integer]
  obtain ⟨htext, hend⟩ := render_eq_of_equal Memory.equal_swapped hreal asking escapingSetup .html
    rfl (by decide) hvalues 1
  rw [hleft, hright] at htext hend
  rw [← htext, ← hend]
  exact ⟨by cbv, by cbv⟩

end Template

end TextTemplate
