import TextTemplate.Engine

/-! The registries of an engine, and the operations that draw on them. What is answered depends on
what the names stand for and not on the order in which they came to do so, and an operation that
fails changes nothing. -/

namespace TextTemplate

/-- The two setups cannot be told apart by looking names up. -/
structure Setup.Alike (setup setup' : Setup) : Prop where
  formatter_eq : ∀ name, setup.formatters.get? name = setup'.formatters.get? name
  template_eq : ∀ name, setup.library.bind (·.get? name) = setup'.library.bind (·.get? name)
  defaultFormatter_eq : setup.defaultFormatter = setup'.defaultFormatter
  strictConditions_eq : setup.strictConditions = setup'.strictConditions

namespace RenderM

variable {setup setup' : Setup}

theorem selectBranch_congr (h : setup.Alike setup') (name : String) (position : Position)
    (path : Path) (body : List Node) (otherwise : Option (List Node)) :
    selectBranch setup name position path body otherwise =
      selectBranch setup' name position path body otherwise := by
  have hcondition (position : Position) (path : Path) :
      condition setup name position path = condition setup' name position path := by
    rw [condition, condition, h.strictConditions_eq]
  fun_induction selectBranch setup name position path body otherwise with
  | case1 position path body otherwise ih =>
    rw [selectBranch.eq_def setup', hcondition]
    congr 1
    funext v
    split
    · rfl
    · split
      · rfl
      · rw [ih]
      · rfl

theorem node_congr (h : setup.Alike setup') (levels : Nat) :
    node setup levels = node setup' levels := by
  have hformat (name : String) (position : Position) (path : Path)
      (formatter : Option FormatterCall) :
      format setup name position path formatter = format setup' name position path formatter := by
    simp only [format, h.defaultFormatter_eq, h.formatter_eq]
  induction levels with
  | zero =>
    funext name n
    cases n <;> simp only [node, hformat]
  | succ levels ih =>
    funext name n
    cases n with
    | text | comment => rfl
    | value position path formatter => simp only [node, hformat]
    | ifBlock position path body otherwise => simp only [node, selectBranch_congr h, ih]
    | forBlock position item index source body => simp only [node, ih]
    | withBlock position bound source body => simp only [node, ih]
    | call position template root arguments => simp only [node, called, h.template_eq, ih]

end RenderM

theorem Template.render_congr {setup setup' : Setup} (h : setup.Alike setup') (t : Template)
    (limit : Int) (root : Value) : t.render setup limit root = t.render setup' limit root := by
  rw [render, render, RenderM.node_congr h]

/-- What an engine can be asked to do. -/
inductive Operation where
  | compile (source name : String)
  | addSource (name source : String)
  | addTemplate (name : String) (compiled : Compiled)
  | registerFormatter (name : String) (candidate : Option Formatter)
  | render (t : Template) (root : Datum)
  | renderNamed (name : String) (root : Datum)
  | renderSource (source name : String) (root : Datum)

inductive Reply where
  | template (t : Template)
  | registered
  | text (text : String)

abbrev Outcome := Except EngineFault Reply

/-- A way to carry out operations on a state, one after the other. -/
abbrev Server (σ : Type) := σ → Operation → Outcome × σ

namespace Server

variable {σ τ : Type} (serve : Server σ) (serve' : Server τ)

def after (s : σ) (operations : List Operation) : σ :=
  operations.foldl (fun s o => (serve s o).2) s

def outcomes : σ → List Operation → List Outcome
  | _, [] => []
  | s, o :: operations => (serve s o).1 :: outcomes (serve s o).2 operations

variable {serve serve'}

/-- Two states that are related, and stay so with every operation, answer alike for ever. -/
theorem outcomes_eq {R : σ → τ → Prop}
    (hstep : ∀ s s' o, R s s' → (serve s o).1 = (serve' s' o).1 ∧ R (serve s o).2 (serve' s' o).2)
    {s : σ} {s' : τ} (h : R s s') (operations : List Operation) :
    serve.outcomes s operations = serve'.outcomes s' operations ∧
      R (serve.after s operations) (serve'.after s' operations) := by
  induction operations generalizing s s' with
  | nil => exact ⟨rfl, h⟩
  | cons o operations ih =>
    obtain ⟨houtcome, hnext⟩ := hstep s s' o h
    obtain ⟨hrest, hafter⟩ := ih hnext
    refine ⟨?_, hafter⟩
    rw [outcomes, outcomes, houtcome, hrest]

end Server

/-- The templates and the formatters that names stand for. The last to get a name has it. -/
structure Registries where
  formatters : FormatterRegistry
  library : Library

namespace Registries

def setup (r : Registries) (settings : Settings) : Setup :=
  ⟨r.formatters, some r.library, settings.strictConditions, settings.defaultFormatter⟩

def compiled (settings : Settings) (source name : String) : Except EngineFault Template :=
  (Template.compile source name settings.maxDepth).mapError .compile

def rendered (r : Registries) (settings : Settings) (t : Template) (root : Datum) : Outcome := do
  let root ← root.toValue.mapError .data
  let rendering := t.render (r.setup settings) settings.maxDepth root
  match rendering.interruption with
  | some interruption => throw (.interrupted interruption rendering.text)
  | none => return .text rendering.text

/-- Every text is compiled anew, and every template rendered with what is registered by then. -/
def serve (settings : Settings) : Server Registries
  | r, .compile source name => ((compiled settings source name).map .template, r)
  | r, .addSource name source =>
    match r.library.registerSource name source settings.maxDepth with
    | .error error => (.error (.compile error), r)
    | .ok (t, library, _) => (.ok (.template t), { r with library })
  | r, .addTemplate name compiled =>
    (.ok (.template compiled.template),
      { r with library := (r.library.register name compiled.template).1 })
  | r, .registerFormatter name candidate =>
    match r.formatters.register name candidate with
    | .error error => (.error (.notCallable error), r)
    | .ok (formatters, _) => (.ok .registered, { r with formatters })
  | r, .render t root => (r.rendered settings t root, r)
  | r, .renderNamed name root =>
    match r.library.get? name with
    | none => (.error (.notRegistered name), r)
    | some t => (r.rendered settings t root, r)
  | r, .renderSource source name root =>
    (do r.rendered settings (← compiled settings source name) root, r)

def addSource (settings : Settings) (r : Registries) (entry : String × String) :
    Except EngineFault Registries :=
  match serve settings r (.addSource entry.1 entry.2) with
  | (.error fault, _) => .error fault
  | (.ok _, r) => .ok r

/-- The registries that an engine with these settings begins with, if it can be made. -/
def make (settings : Settings) : Except EngineFault Registries := do
  let formatters ← (FormatterRegistry.ofModeName settings.autoescape).mapError .escapeMode
  settings.templates.foldlM (addSource settings) ⟨formatters, []⟩

/-- Names stand for the same in both, whatever the order in which they were registered. -/
structure Alike (r r' : Registries) : Prop where
  formatter_eq : ∀ name, r.formatters.get? name = r'.formatters.get? name
  template_eq : ∀ name, r.library.get? name = r'.library.get? name

section Alike

variable {settings : Settings} {r r' r'' : Registries}

theorem Alike.refl (r : Registries) : r.Alike r := ⟨fun _ => rfl, fun _ => rfl⟩

theorem Alike.trans (h : r.Alike r') (h' : r'.Alike r'') : r.Alike r'' where
  formatter_eq name := (h.formatter_eq name).trans (h'.formatter_eq name)
  template_eq name := (h.template_eq name).trans (h'.template_eq name)

theorem Alike.setup (h : r.Alike r') (settings : Settings) :
    (r.setup settings).Alike (r'.setup settings) where
  formatter_eq := h.formatter_eq
  template_eq := h.template_eq
  defaultFormatter_eq := rfl
  strictConditions_eq := rfl

theorem Alike.rendered_eq (h : r.Alike r') (settings : Settings) (t : Template) (root : Datum) :
    r.rendered settings t root = r'.rendered settings t root := by
  simp only [rendered, Template.render_congr (h.setup settings)]

theorem Alike.put_template (h : r.Alike r') (name : String) (t : Template) :
    Alike { r with library := r.library.put name t }
      { r' with library := r'.library.put name t } where
  formatter_eq := h.formatter_eq
  template_eq key := by
    rw [NameMap.get?_put, NameMap.get?_put, h.template_eq key]

theorem Alike.put_formatter (h : r.Alike r') (name : String) (f : Formatter) :
    Alike { r with formatters := r.formatters.put name f }
      { r' with formatters := r'.formatters.put name f } where
  formatter_eq key := by
    rw [NameMap.get?_put, NameMap.get?_put, h.formatter_eq key]
  template_eq := h.template_eq

theorem registerSource_eq (l : Library) (name source : String) (limit : Int) :
    l.registerSource name source limit =
      (Template.compile source name limit).map fun t =>
        (t, (l.register name t).1, t.compiledEntry :: (l.register name t).2) := by
  rw [Library.registerSource]
  cases Template.compile source name limit <;> rfl

theorem Alike.served (h : r.Alike r') (settings : Settings) (o : Operation) :
    (serve settings r o).1 = (serve settings r' o).1 ∧
      (serve settings r o).2.Alike (serve settings r' o).2 := by
  cases o with
  | compile source name => exact ⟨rfl, h⟩
  | addSource name source =>
    simp only [serve, registerSource_eq]
    cases Template.compile source name settings.maxDepth with
    | error error => exact ⟨rfl, h⟩
    | ok t => exact ⟨rfl, h.put_template name t⟩
  | addTemplate name compiled => exact ⟨rfl, h.put_template name compiled.template⟩
  | registerFormatter name candidate =>
    cases candidate with
    | none => exact ⟨rfl, h⟩
    | some f => exact ⟨rfl, h.put_formatter name f⟩
  | render t root => exact ⟨h.rendered_eq settings t root, h⟩
  | renderNamed name root =>
    simp only [serve, h.template_eq name]
    cases NameMap.get? r'.library name with
    | none => exact ⟨rfl, h⟩
    | some t => exact ⟨h.rendered_eq settings t root, h⟩
  | renderSource source name root =>
    refine ⟨?_, h⟩
    simp only [serve, h.rendered_eq settings]

end Alike

end Registries

namespace Registries

section Order

variable {settings : Settings}

theorem Alike.after {r r' : Registries} (h : r.Alike r') (settings : Settings)
    (operations : List Operation) :
    Alike ((serve settings).after r operations) ((serve settings).after r' operations) :=
  (Server.outcomes_eq (fun _ _ o h => h.served settings o) h operations).2

end Order

end Registries

end TextTemplate
