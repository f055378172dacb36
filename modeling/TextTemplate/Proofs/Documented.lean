import TextTemplate.Proofs.LookUp
import TextTemplate.Proofs.Source.Compiled
import TextTemplate.Settings

/-! How a rendering of compiled templates can end: with its text, or with an error that is located
in a template, unless it gets to a node that meets a number of too many digits. -/

namespace TextTemplate

def Template.IsCompiled (t : Template) : Prop :=
  ∃ source name limit, Template.compile source name limit = .ok t

theorem Template.IsCompiled.wellFormed {t : Template} (h : t.IsCompiled) :
    Node.ListWellFormed t.nodes := by
  obtain ⟨source, name, limit, hcompile⟩ := h
  exact (Template.wellFormed_of_compile hcompile).1

theorem Node.Alternative.wellFormed {body nodes : List Node} {otherwise : Option (List Node)}
    (h : Alternative body otherwise nodes) (hbody : ListWellFormed body)
    (hotherwise : OptionWellFormed otherwise) : ListWellFormed nodes := by
  induction h with
  | body => exact hbody
  | nothing => trivial
  | otherwise => exact hotherwise
  | chained h ih =>
    obtain ⟨⟨-, hinner, hrest⟩, -⟩ := hotherwise
    exact ih hinner hrest

/-- The nodes that the task renders, now or later, have a source text. -/
def Task.WellFormed : Task → Prop
  | .render _ nodes => Node.ListWellFormed nodes
  | .look _ block => block.WellFormed
  | .turns _ _ _ body _ => Node.ListWellFormed body
  | .unbind | .restore _ | .leave _ => True

namespace Moment

def WellFormed (m : Moment) : Prop :=
  ∀ task ∈ m.tasks, task.WellFormed

section Invariant

variable {setup : Setup} {m m' : Moment}

theorem At.wellFormed {name : String} {n : Node} {behind : List Task} (h : m.At name n behind)
    (hm : m.WellFormed) : n.WellFormed ∧ ∀ task ∈ behind, task.WellFormed := by
  cases h with
  | value =>
    obtain ⟨⟨hn, -, hnodes⟩, htasks⟩ := List.forall_mem_cons.mp hm
    exact ⟨hn, List.forall_mem_cons.mpr ⟨hnodes, htasks⟩⟩
  | block => exact List.forall_mem_cons.mp hm

theorem wellFormed_goOn
    (hlibrary : ∀ name t, setup.template? name = some t → Node.ListWellFormed t.nodes)
    {ρ : Environment} {name : String} {behind : List Task} (s : Session) {n : Node}
    {finding : Finding} (hn : n.WellFormed) (hbehind : ∀ task ∈ behind, task.WellFormed)
    (hlook : ρ.look setup name n = .ok finding) : (goOn name behind s n finding).WellFormed := by
  cases n with
  | text | comment | value => cases finding <;> exact hbehind
  | ifBlock position path body otherwise =>
    cases finding with
    | branch nodes =>
      obtain ⟨-, hbody, hotherwise⟩ := hn
      cases hbranch : ρ.findBranch setup name position path body otherwise with
      | error interruption => simp [Environment.look, hbranch, Functor.map, Except.map] at hlook
      | ok nodes' =>
        obtain rfl : nodes' = nodes := by
          simpa [Environment.look, hbranch, Functor.map, Except.map] using hlook
        have hnodes := (Environment.alternative_of_findBranch hbranch).wellFormed hbody hotherwise
        exact List.forall_mem_cons.mpr ⟨hnodes, hbehind⟩
    | text | items | value | callee => exact hbehind
  | forBlock position item index source body =>
    obtain ⟨-, -, -, hbody⟩ := hn
    cases finding with
    | items items => exact List.forall_mem_cons.mpr ⟨hbody, hbehind⟩
    | text | branch | value | callee => exact hbehind
  | withBlock position bound source body =>
    obtain ⟨-, -, hbody⟩ := hn
    cases finding with
    | value v =>
      exact List.forall_mem_cons.mpr ⟨hbody, List.forall_mem_cons.mpr ⟨trivial, hbehind⟩⟩
    | text | branch | items | callee => exact hbehind
  | call position template root arguments =>
    cases finding with
    | callee t context =>
      obtain ⟨u, hu, hlook⟩ := bind_eq_ok.mp hlook
      obtain ⟨current, -, hlook⟩ := bind_eq_ok.mp hlook
      obtain ⟨bindings, -, hlook⟩ := bind_eq_ok.mp hlook
      obtain ⟨rfl, -⟩ := Finding.callee.inj (Except.ok.inj hlook)
      have hnodes := hlibrary template u (Environment.findTemplate_eq_ok_iff.mp hu)
      exact List.forall_mem_cons.mpr ⟨hnodes, List.forall_mem_cons.mpr ⟨trivial, hbehind⟩⟩
    | text | branch | items | value => exact hbehind

theorem Steps.wellFormed
    (hlibrary : ∀ name t, setup.template? name = some t → Node.ListWellFormed t.nodes)
    (h : Steps setup m m') (hm : m.WellFormed) : m'.WellFormed := by
  cases h with
  | @found m name n behind finding hat hlook =>
    obtain ⟨hn, hbehind⟩ := hat.wellFormed hm
    exact wellFormed_goOn hlibrary m.session hn hbehind hlook
  | text | comment =>
    obtain ⟨⟨-, -, hnodes⟩, htasks⟩ := List.forall_mem_cons.mp hm
    exact List.forall_mem_cons.mpr ⟨hnodes, htasks⟩
  | enter =>
    obtain ⟨⟨hblock, -, hnodes⟩, htasks⟩ := List.forall_mem_cons.mp hm
    refine List.forall_mem_cons.mpr ⟨hblock, List.forall_mem_cons.mpr ⟨trivial, ?_⟩⟩
    exact List.forall_mem_cons.mpr ⟨hnodes, htasks⟩
  | turn =>
    obtain ⟨hbody, htasks⟩ := List.forall_mem_cons.mp hm
    refine List.forall_mem_cons.mpr ⟨hbody, List.forall_mem_cons.mpr ⟨trivial, ?_⟩⟩
    exact List.forall_mem_cons.mpr ⟨hbody, htasks⟩
  | rendered | turned | leaf | undo => exact (List.forall_mem_cons.mp hm).2

/-- The rendering is at a node that meets a long number, or beyond a limit that is one itself. -/
inductive MeetsLongNumber (setup : Setup) : Moment → Prop
  | node {m : Moment} {name : String} {n : Node} {behind : List Task} (hat : m.At name n behind)
      (h : m.view.MeetsLongNumber setup n) : MeetsLongNumber setup m
  | limit {name : String} {block : Node} {nodes : List Node} {tasks : List Task} {s : Session}
      (hblock : block.isLeaf = false) (hfull : s.depth.enter? = none)
      (h : IsLong s.depth.limit) :
      MeetsLongNumber setup ⟨.render name (block :: nodes) :: tasks, s, none⟩

end Invariant

end Moment

namespace Template

variable {setup : Setup} {limit : Int} {root : Value} {t : Template}

/-- Any moment at which a node of a compiled template looks things up. -/
theorem IsCompiled.wellFormed_at (ht : t.IsCompiled)
    (hlibrary : ∀ name u, setup.template? name = some u → u.IsCompiled) {m : Moment}
    (hleads : Moment.Leads setup (.begun t limit root) m) {name : String} {n : Node}
    {behind : List Task} (hat : m.At name n behind) : n.WellFormed := by
  have hbegun : (Moment.begun t limit root).WellFormed := by
    intro task htask
    obtain rfl := List.mem_singleton.mp htask
    exact ht.wellFormed
  have hm : m.WellFormed := hleads.running hat.interruption_eq hbegun fun k k' hsteps hk =>
    hsteps.wellFormed (fun name u hu => (hlibrary name u hu).wellFormed) hk
  exact (hat.wellFormed hm).1

theorem documented_iff (ht : t.IsCompiled)
    (hlibrary : ∀ name u, setup.template? name = some u → u.IsCompiled) {mode : EscapeMode}
    (hformatters : setup.formatters = .standard mode) :
    ((t.render setup limit root).interruption = none ∨
        ∃ e, (t.render setup limit root).interruption = some (.error e)) ↔
      ¬ ∃ m, Moment.Leads setup (.begun t limit root) m ∧ m.MeetsLongNumber setup := by
  have hbad : (∃ i, (t.render setup limit root).interruption = some i ∧ i.IsBad) ↔
      ∃ m, Moment.Leads setup (.begun t limit root) m ∧ m.MeetsLongNumber setup := by
    constructor
    · rintro ⟨i, hi, hbad⟩
      obtain ⟨m, hleads, hstop⟩ := Moment.interruption_eq_some_iff.mp hi
      cases hstop with
      | full hblock hfull =>
        exact ⟨_, hleads, .limit hblock hfull (Interruption.isBad_tooDeep_iff.mp hbad)⟩
      | @failed _ name n behind _ hat hlook =>
        have hn := ht.wellFormed_at hlibrary hleads hat
        have hmeets := (Environment.failsBy_look hformatters hn).mp ⟨i, hlook, hbad⟩
        exact ⟨m, hleads, .node hat hmeets⟩
    · rintro ⟨m, hleads, hmeets⟩
      cases hmeets with
      | node hat hmeets =>
        have hn := ht.wellFormed_at hlibrary hleads hat
        obtain ⟨i, hlook, hbad⟩ := (Environment.failsBy_look hformatters hn).mpr hmeets
        exact ⟨i, Moment.interruption_eq_some_iff.mpr ⟨m, hleads, .failed hat hlook⟩, hbad⟩
      | limit hblock hfull hlong =>
        have hstop := Moment.interruption_eq_some_iff.mpr ⟨_, hleads, .full hblock hfull⟩
        exact ⟨_, hstop, Interruption.isBad_tooDeep_iff.mpr hlong⟩
  rw [← hbad]
  cases (t.render setup limit root).interruption with
  | none => simp
  | some i => cases i <;> simp

end Template

section Lenient

variable {ρ : Environment} {setup : Setup} {name : String} {position : Position}

theorem Environment.failsBy_findCondition_bad (h : setup.strictConditions = false) {path : Path} :
    ¬ FailsBy (fun i => ¬ i.IsBad) (ρ.findCondition setup name position path) := by
  unfold findCondition find
  rw [h]
  cases ρ.resolve path with
  | ok v => simp
  | error fault => cases fault <;> simp

theorem Environment.failsBy_findBranch_bad (h : setup.strictConditions = false) {path : Path}
    {body : List Node} {otherwise : Option (List Node)} :
    ¬ FailsBy (fun i => ¬ i.IsBad)
      (ρ.findBranch setup name position path body otherwise) := by
  fun_induction findBranch ρ setup name position path body otherwise with
  | case1 position path body otherwise ih =>
    rw [failsBy_bind, or_iff_right (failsBy_findCondition_bad h)]
    rintro ⟨v, -, hfails⟩
    by_cases hv : v.isTruthy = true
    · rw [if_pos hv] at hfails
      exact not_failsBy_ok _ hfails
    · rw [if_neg hv] at hfails
      split at hfails
      · exact ih hfails
      · exact not_failsBy_ok _ hfails

/-- Conditions that need not be found stop no rendering with an error. -/
theorem Moment.At.not_stoppedBy_error {m : Moment} {condition : Path} {body : List Node}
    {otherwise : Option (List Node)} {behind : List Task}
    (hat : m.At name (.ifBlock position condition body otherwise) behind)
    (h : setup.strictConditions = false) (e : RenderError) : ¬ m.StoppedBy setup (.error e) := by
  intro hstop
  cases hat with
  | block =>
    cases hstop with
    | failed hat' hlook =>
      cases hat' with
      | block =>
        have hfails : FailsBy (fun i => ¬ i.IsBad) (Environment.look _ setup name
            (.ifBlock position condition body otherwise)) :=
          ⟨.error e, hlook, Interruption.not_isBad_error e⟩
        rw [Environment.look, failsBy_map] at hfails
        exact Environment.failsBy_findBranch_bad h hfails

end Lenient

/-- Data of the plain kinds, with texts for keys. -/
inductive Datum.IsPlain : Datum → Prop
  | null : IsPlain .null
  | truth {b : Bool} : IsPlain (.truth b)
  | integer {n : Int} : IsPlain (.integer n)
  | real {x : Float} : IsPlain (.real x)
  | text {s : String} : IsPlain (.text s)
  | list {items : List Datum} (h : ∀ d ∈ items, IsPlain d) : IsPlain (.list items)
  | map {entries : List (Datum × Datum)} (hkeys : ∀ entry ∈ entries, ∃ name, entry.1 = .text name)
      (h : ∀ entry ∈ entries, IsPlain entry.2) : IsPlain (.map entries)

theorem Datum.exists_toValues {items : List Datum} (h : ∀ d ∈ items, ∃ v, d.toValue = .ok v) :
    ∃ vs, toValues items = .ok vs := by
  induction items with
  | nil => exact ⟨[], rfl⟩
  | cons d items ih =>
    obtain ⟨⟨v, hv⟩, hrest⟩ := List.forall_mem_cons.mp h
    obtain ⟨vs, hvs⟩ := ih hrest
    refine ⟨v :: vs, ?_⟩
    rw [toValues, hv, hvs]
    rfl

theorem Datum.exists_toFields {entries : List (Datum × Datum)}
    (hkeys : ∀ entry ∈ entries, ∃ name, entry.1 = .text name)
    (h : ∀ entry ∈ entries, ∃ v, entry.2.toValue = .ok v) (done : NameMap Value) :
    ∃ fields, toFields done entries = .ok fields := by
  induction entries generalizing done with
  | nil => exact ⟨done, rfl⟩
  | cons entry entries ih =>
    obtain ⟨key, item⟩ := entry
    obtain ⟨⟨name, hkey⟩, hkeys⟩ := List.forall_mem_cons.mp hkeys
    obtain ⟨⟨v, hv⟩, hrest⟩ := List.forall_mem_cons.mp h
    dsimp only at hkey hv
    obtain ⟨fields, hfields⟩ := ih hkeys hrest (done.put name v)
    refine ⟨fields, ?_⟩
    rw [toFields, hkey, hv]
    exact hfields

theorem Datum.IsPlain.exists_toValue {d : Datum} (h : d.IsPlain) : ∃ v, d.toValue = .ok v := by
  induction h with
  | null | truth | integer | real | text => exact ⟨_, rfl⟩
  | list _ ih =>
    obtain ⟨vs, hvs⟩ := exists_toValues ih
    refine ⟨.sequence vs, ?_⟩
    rw [toValue, hvs]
    rfl
  | map hkeys _ ih =>
    obtain ⟨fields, hfields⟩ := exists_toFields hkeys ih []
    refine ⟨.record fields, ?_⟩
    rw [toValue, hfields]
    rfl

namespace Settings

theorem refuseDatum_ne_ok {α : Type} (source : String) (problem : String → SettingsProblem)
    (text : Except MethodFault String) (a : α) : refuseDatum source problem text ≠ .ok a := by
  cases text <;> rintro ⟨⟩

@[simp] theorem ask_ok {α : Type} (a : α) : ask (.ok a) = .ok a := rfl

theorem ask_eq_ok_iff {α : Type} {answer : Except MethodFault α} {a : α} :
    ask answer = .ok a ↔ answer = .ok a := by
  cases answer with
  | ok b => rw [ask_ok, Except.ok.injEq, Except.ok.injEq]
  | error fault => exact iff_of_false nofun nofun

/-- A way of escaping that is taken is known, and equals what was given for it. -/
theorem of_checkAutoescape {source mode : String} {d : Datum}
    (h : checkAutoescape source d = .ok mode) :
    equalText? d = .ok (some mode) ∧ (EscapeMode.ofName? mode).isSome = true := by
  obtain ⟨found, hfound, h⟩ := bind_eq_ok.mp h
  rw [ask_eq_ok_iff] at hfound
  split at h
  · rename_i s hs
    obtain rfl : s = mode := Except.ok.inj h
    obtain ⟨rfl, hmode⟩ := Option.filter_eq_some_iff.mp hs
    exact ⟨hfound, hmode⟩
  · exact (refuseDatum_ne_ok _ _ _ _ h).elim

theorem checked_autoescape {raw : List (Datum × Datum)} {source mode : String}
    (h : checked raw "autoescape" (checkAutoescape source) EscapeMode.html.name = .ok mode) :
    (EscapeMode.ofName? mode).isSome = true := by
  unfold checked at h
  split at h
  · exact (of_checkAutoescape h).2
  · obtain rfl := Except.ok.inj h
    rfl

/-- The way of escaping that accepted settings name is one of those there are. -/
theorem exists_mode {raw : List (Datum × Datum)} {source : String} {settings : Settings}
    {log : Log} (h : ofEntries raw source = (.ok settings, log)) :
    ∃ mode, FormatterRegistry.ofModeName settings.autoescape = .ok (.standard mode) := by
  have hcheck : check raw source = .ok settings := by
    unfold ofEntries at h
    split at h
    · cases h
    · exact congrArg Prod.fst h
  obtain ⟨-, -, hcheck⟩ := bind_eq_ok.mp hcheck
  obtain ⟨maxDepth, -, hcheck⟩ := bind_eq_ok.mp hcheck
  obtain ⟨autoescape, hautoescape, hcheck⟩ := bind_eq_ok.mp hcheck
  obtain ⟨strictConditions, -, hcheck⟩ := bind_eq_ok.mp hcheck
  obtain ⟨defaultFormatter, -, hcheck⟩ := bind_eq_ok.mp hcheck
  obtain ⟨templates, -, hcheck⟩ := bind_eq_ok.mp hcheck
  obtain rfl := Except.ok.inj hcheck
  obtain ⟨mode, hmode⟩ := Option.isSome_iff_exists.mp (checked_autoescape hautoescape)
  refine ⟨mode, ?_⟩
  rw [FormatterRegistry.ofModeName, hmode]

def setup (settings : Settings) (mode : EscapeMode) (library : Option Library) : Setup :=
  ⟨.standard mode, library, settings.strictConditions, settings.defaultFormatter⟩

end Settings

namespace Template

/-- With settings that are accepted, the formatters that every registry starts from, compiled
templates and plain data, all of whose texts are of Unicode scalar values, a rendering ends with its
text or with an error, behind what was said by then, unless it gets to a node that meets a long
number or has to report a depth limit that is one. Where conditions need not be found, none of them
stops it with an error. -/
theorem render_documented_iff {raw : List (Datum × Datum)} {source : String} {settings : Settings}
    {log : Log} (hsettings : Settings.ofEntries raw source = (.ok settings, log))
    (mode : EscapeMode) {library : Option Library} {t : Template} {d : Datum} (ht : t.IsCompiled)
    (hlibrary : ∀ l ∈ library, ∀ name u, l.get? name = some u → u.IsCompiled) (hd : d.IsPlain) :
    (∃ own, FormatterRegistry.ofModeName settings.autoescape = .ok (.standard own)) ∧
    ∃ root, d.toValue = .ok root ∧
      (((t.render (settings.setup mode library) settings.maxDepth root).interruption = none ∨
          ∃ e, (t.render (settings.setup mode library) settings.maxDepth root).interruption =
            some (.error e)) ↔
        ¬ ∃ m, Moment.Leads (settings.setup mode library) (.begun t settings.maxDepth root) m ∧
          m.MeetsLongNumber (settings.setup mode library)) ∧
      (∀ e, (t.render (settings.setup mode library) settings.maxDepth root).interruption =
          some (.error e) →
        ∃ m, Moment.Leads (settings.setup mode library) (.begun t settings.maxDepth root) m ∧
          m.StoppedBy (settings.setup mode library) (.error e) ∧
          (t.render (settings.setup mode library) settings.maxDepth root).text =
            String.join m.session.output.reverse) ∧
      (settings.strictConditions = false → ∀ m name position condition body otherwise behind,
        Moment.Leads (settings.setup mode library) (.begun t settings.maxDepth root) m →
        m.At name (.ifBlock position condition body otherwise) behind →
        ∀ e, ¬ m.StoppedBy (settings.setup mode library) (.error e)) := by
  obtain ⟨root, hroot⟩ := hd.exists_toValue
  refine ⟨Settings.exists_mode hsettings, root, hroot, ?_, ?_, ?_⟩
  · refine documented_iff ht ?_ rfl
    intro name u hu
    obtain ⟨l, hl, hget⟩ := Option.bind_eq_some_iff.mp hu
    exact hlibrary l hl name u hget
  · intro e he
    obtain ⟨m, hleads, hstop⟩ := Moment.interruption_eq_some_iff.mp he
    refine ⟨m, hleads, hstop, ?_⟩
    rw [Moment.render_of_stoppedBy hleads hstop]
    rfl
  · intro hlenient m name position condition body otherwise behind _ hat e
    exact hat.not_stoppedBy_error hlenient e

def naming : Template :=
  ⟨"t", [.value ⟨0, 1, 1⟩ ⟨["x"], false⟩ none]⟩

theorem compile_naming : compile "\x7b\x7b x \x7d\x7d" "t" 1 = .ok naming := by
  refine compile_eq_ok_iff.mpr ⟨.leaf ⟨⟨⟨.opener, "\x7b\x7b", ⟨0, 1, 1⟩⟩, rfl⟩,
    .value ⟨⟨⟨⟨.identifier, "x", ⟨3, 1, 4⟩⟩, .inr rfl⟩, []⟩, none⟩,
    ⟨⟨.closer, "\x7d\x7d", ⟨5, 1, 6⟩⟩, rfl⟩⟩ .nil, ⟨7, 1, 8⟩, ?_, by decide, rfl⟩
  have htext : Cursor.ofText "\x7b\x7b x \x7d\x7d" =
      ⟨.start, ['{', '{', ' ', 'x', ' ', '}', '}']⟩ := rfl
  rw [TokenStream.ofText, scan, htext, scanFrom_of_token rfl, scanFrom_of_token rfl,
    scanFrom_of_token rfl, scanFrom_of_finished rfl]
  rfl

theorem meetsLongNumber_naming {n : Int} (h : IsLong n) :
    (Moment.begun naming 64 (.record [("x", .integer n)])).MeetsLongNumber
      (Settings.setup {} .html none) := by
  have hwrites : Builtin.html.WritesLong (.integer n) := ⟨n, rfl, h⟩
  exact .node .value (.written rfl rfl rfl hwrites)

/-- With the settings that nothing is given for, an integer of one digit too many. -/
theorem render_documented_iff_naming :
    Settings.ofEntries [] "" = (.ok {}, []) ∧
    compile "\x7b\x7b x \x7d\x7d" "t" 1 = .ok naming ∧
    ∃ root, Datum.toValue (.map [(.text "x", .integer (10 ^ maxIntegerDigits : Nat))]) = .ok root ∧
      ¬ ((naming.render (Settings.setup {} .html none) 64 root).interruption = none ∨
        ∃ e, (naming.render (Settings.setup {} .html none) 64 root).interruption =
          some (.error e)) := by
  have hsettings : Settings.ofEntries [] "" = (.ok {}, []) := rfl
  have hplain : Datum.IsPlain (.map [(.text "x", .integer (10 ^ maxIntegerDigits : Nat))]) := by
    refine .map ?_ ?_
    · intro entry hentry
      obtain rfl := List.mem_singleton.mp hentry
      exact ⟨"x", rfl⟩
    · intro entry hentry
      obtain rfl := List.mem_singleton.mp hentry
      exact .integer
  have hcalled : ∀ l ∈ (none : Option Library), ∀ name u, l.get? name = some u → u.IsCompiled := by
    simp
  obtain ⟨-, root, hroot, hdocumented, -⟩ :=
    render_documented_iff hsettings .html ⟨_, _, _, compile_naming⟩ hcalled hplain
  refine ⟨hsettings, compile_naming, root, hroot, ?_⟩
  obtain rfl : root = .record [("x", .integer (10 ^ maxIntegerDigits : Nat))] :=
    (Except.ok.inj hroot).symm
  have hlong : IsLong (10 ^ maxIntegerDigits : Nat) :=
    Nat.le_of_eq (Int.natAbs_natCast (10 ^ maxIntegerDigits)).symm
  intro hends
  exact hdocumented.mp hends ⟨_, Relation.ReflTransGen.refl, meetsLongNumber_naming hlong⟩

end Template

end TextTemplate
