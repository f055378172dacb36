import Mathlib
import TextTemplate.Proofs.Registries
import TextTemplate.Proofs.Rendering

/-! What an engine answers over its life. It answers every history of operations as its registries
alone do, so that neither its cache nor an operation that failed can be noticed, and templates may
be registered in any order, and anew. -/

namespace TextTemplate

namespace Engine

def perform : Operation → EngineM Reply
  | .compile source name => do
    let compiled ← compile source name
    return .template compiled.template
  | .addSource name source => do
    let compiled ← addSource name source
    return .template compiled.template
  | .addTemplate name compiled => do
    let compiled ← addTemplate name compiled
    return .template compiled.template
  | .registerFormatter name candidate => do
    registerFormatter name candidate
    return .registered
  | .render t root => do return .text (← render t root)
  | .renderNamed name root => do return .text (← renderNamed name root)
  | .renderSource source name root => do return .text (← renderSource source name root)

def serve : Server EngineState :=
  fun s o => (perform o).run s

/-- The engine has these registries, and its cache holds nothing but what would be compiled. -/
structure Shows (settings : Settings) (e : Engine) (r : Registries) : Prop where
  settings_eq : e.settings = settings
  formatters_eq : e.formatters = r.formatters
  library_eq : e.library = r.library
  compile_eq : ∀ source name compiled, e.cached? source name = some compiled →
    Template.compile source name settings.maxDepth = .ok compiled.template

/-- The step of an engine gives what the registries answer, and the two still go together. -/
structure Answers (settings : Settings) {α β : Type} (f : α → β)
    (step : Except EngineFault α × EngineState) (served : Except EngineFault β × Registries) :
    Prop where
  outcome_eq : step.1.map f = served.1
  shows : Shows settings step.2.engine served.2

section Perform

variable {settings : Settings} {α β γ δ : Type} {s : EngineState} {r : Registries}

theorem run_get_bind (f : EngineState → EngineM β) (s : EngineState) :
    ((get : EngineM EngineState) >>= f).run s = (f s).run s := rfl

theorem Shows.setup_eq {e : Engine} (h : Shows settings e r) : e.setup = r.setup settings := by
  rw [Engine.setup, h.formatters_eq, h.library_eq, h.settings_eq]
  rfl

theorem Shows.append {e : Engine} (h : Shows settings e r) {source name : String} {t : Template}
    (ht : Template.compile source name settings.maxDepth = .ok t) (serial : Nat) :
    Shows settings { e with cache := e.cache ++ [((name, source), ⟨serial, t⟩)] } r where
  settings_eq := h.settings_eq
  formatters_eq := h.formatters_eq
  library_eq := h.library_eq
  compile_eq source' name' compiled hcached := by
    rw [cached?, List.lookup_append, Option.or_eq_some_iff] at hcached
    rcases hcached with hold | ⟨-, hnew⟩
    · exact h.compile_eq source' name' compiled hold
    · rw [List.lookup_cons] at hnew
      by_cases hkey : (name', source') = (name, source)
      · obtain ⟨rfl, rfl⟩ := Prod.mk.inj hkey
        simp only [beq_self_eq_true, Option.some.injEq] at hnew
        rw [← hnew, ht]
      · rw [beq_eq_false_iff_ne.mpr hkey] at hnew
        cases hnew

theorem Shows.put_library {e : Engine} (h : Shows settings e r) (library : Library) :
    Shows settings { e with library } { r with library } where
  settings_eq := h.settings_eq
  formatters_eq := h.formatters_eq
  library_eq := rfl
  compile_eq := h.compile_eq

theorem Shows.put_formatters {e : Engine} (h : Shows settings e r)
    (formatters : FormatterRegistry) :
    Shows settings { e with formatters } { r with formatters } where
  settings_eq := h.settings_eq
  formatters_eq := rfl
  library_eq := h.library_eq
  compile_eq := h.compile_eq

/-- After a step that answers as `result`, what follows is to be looked at only if it is taken. -/
theorem Answers.bind {x : EngineM α} {k : α → EngineM γ} {f : α → β} {g : γ → δ}
    {result : Except EngineFault β} {served : Except EngineFault δ × Registries}
    (h : Answers settings f (x.run s) (result, r))
    (herror : ∀ fault, result = .error fault → served = (.error fault, r))
    (hok : ∀ a s', result = .ok (f a) → Shows settings s'.engine r →
      Answers settings g ((k a).run s') served) :
    Answers settings g ((x >>= k).run s) served := by
  obtain ⟨hresult, hshows⟩ := h
  rw [run_bind]
  rcases hx : x.run s with ⟨fault | a, s'⟩ <;> rw [hx] at hresult hshows
  · rw [herror fault hresult.symm]
    exact ⟨rfl, hshows⟩
  · exact hok a s' hresult.symm hshows

theorem Answers.map {x : EngineM α} {f : α → β} {result : Except EngineFault β}
    (h : Answers settings f (x.run s) (result, r)) (g : β → γ) :
    Answers settings (g ∘ f) (x.run s) (result.map g, r) := by
  obtain ⟨rfl, hshows⟩ := h
  refine ⟨?_, hshows⟩
  cases (x.run s).1 <;> rfl

theorem Answers.reply {x : EngineM α} {f : α → Reply} {served : Outcome × Registries}
    (h : Answers settings f (x.run s) served) :
    Answers settings id ((x >>= fun a => pure (f a)).run s) served :=
  h.bind (fun _ hresult => hresult ▸ rfl) fun _ _ hresult hshows => ⟨hresult.symm, hshows⟩

/-- Compiling answers as if nothing was in the cache. -/
theorem Shows.run_compile (h : Shows settings s.engine r) (source name : String) :
    Answers settings Compiled.template ((compile source name).run s)
      (Registries.compiled settings source name, r) := by
  rw [compile, run_get_bind]
  cases hcached : s.engine.cached? source name with
  | some compiled =>
    refine ⟨?_, h⟩
    rw [Registries.compiled, h.compile_eq source name compiled hcached]
    rfl
  | none =>
    dsimp only
    rw [compileFresh, run_get_bind]
    dsimp only
    rw [h.settings_eq, Registries.compiled]
    cases ht : Template.compile source name settings.maxDepth with
    | error error => exact ⟨rfl, h⟩
    | ok t => exact ⟨rfl, h.append ht _⟩

theorem Shows.run_addTemplate (h : Shows settings s.engine r) (name : String)
    (compiled : Compiled) :
    Answers settings Compiled.template ((addTemplate name compiled).run s)
      (.ok compiled.template, { r with library := r.library.put name compiled.template }) := by
  refine ⟨rfl, ?_⟩
  rw [← h.library_eq]
  exact h.put_library _

theorem Shows.run_addSource (h : Shows settings s.engine r) (name source : String) :
    Answers settings (Reply.template ∘ Compiled.template) ((addSource name source).run s)
      (Registries.serve settings r (.addSource name source)) := by
  have hcompile := h.run_compile source name
  rw [Registries.compiled] at hcompile
  rw [Registries.serve, Registries.registerSource_eq]
  cases hc : Template.compile source name settings.maxDepth with
  | error error =>
    rw [hc] at hcompile
    refine hcompile.bind ?_ ?_
    · intro fault hresult
      obtain rfl := Except.error.inj hresult
      rfl
    · intro compiled s' hresult
      cases hresult
  | ok t =>
    rw [hc] at hcompile
    refine hcompile.bind ?_ ?_
    · intro fault hresult
      cases hresult
    · intro compiled s' hresult h'
      obtain rfl := Except.ok.inj hresult
      exact (h'.run_addTemplate name compiled).map Reply.template

theorem Shows.run_registerFormatter (h : Shows settings s.engine r) (name : String)
    (candidate : Option Formatter) :
    Answers settings (fun _ => .registered) ((registerFormatter name candidate).run s)
      (Registries.serve settings r (.registerFormatter name candidate)) := by
  rw [registerFormatter, run_get_bind, h.formatters_eq, Registries.serve]
  cases r.formatters.register name candidate with
  | error error => exact ⟨rfl, h⟩
  | ok registered => exact ⟨rfl, h.put_formatters registered.1⟩

theorem Shows.run_render (h : Shows settings s.engine r) (t : Template) (root : Datum) :
    Answers settings .text ((render t root).run s) (r.rendered settings t root, r) := by
  rw [render, run_get_bind]
  dsimp only
  rw [h.setup_eq, h.settings_eq, Registries.rendered]
  cases root.toValue with
  | error fault => exact ⟨rfl, h⟩
  | ok v =>
    simp only [Except.mapError, bind, Except.bind]
    cases (t.render (r.setup settings) settings.maxDepth v).interruption with
    | some i => exact ⟨rfl, h⟩
    | none => exact ⟨rfl, h⟩

theorem Shows.run_renderNamed (h : Shows settings s.engine r) (name : String) (root : Datum) :
    Answers settings .text ((renderNamed name root).run s)
      (Registries.serve settings r (.renderNamed name root)) := by
  rw [renderNamed, run_get_bind, h.library_eq, Registries.serve]
  cases NameMap.get? r.library name with
  | none => exact ⟨rfl, h⟩
  | some t => exact h.run_render t root

theorem Shows.run_renderSource (h : Shows settings s.engine r) (source name : String)
    (root : Datum) :
    Answers settings .text ((renderSource source name root).run s)
      (Registries.serve settings r (.renderSource source name root)) := by
  refine (h.run_compile source name).bind ?_ fun compiled s' hresult h' => ?_
  · intro fault hresult
    rw [Registries.serve, hresult]
    rfl
  · rw [Registries.serve, hresult]
    exact h'.run_render compiled.template root

/-- Every operation answers as the registries do. -/
theorem Shows.served (h : Shows settings s.engine r) (o : Operation) :
    (serve s o).1 = (Registries.serve settings r o).1 ∧
      Shows settings (serve s o).2.engine (Registries.serve settings r o).2 := by
  have hanswers : Answers settings id ((perform o).run s) (Registries.serve settings r o) := by
    cases o with
    | compile source name => exact ((h.run_compile source name).map .template).reply
    | addSource name source => exact (h.run_addSource name source).reply
    | addTemplate name compiled => exact ((h.run_addTemplate name compiled).map .template).reply
    | registerFormatter name candidate => exact (h.run_registerFormatter name candidate).reply
    | render t root => exact (h.run_render t root).reply
    | renderNamed name root => exact (h.run_renderNamed name root).reply
    | renderSource source name root => exact (h.run_renderSource source name root).reply
  refine ⟨?_, hanswers.shows⟩
  rw [← hanswers.outcome_eq, Except.map_id, id]
  rfl

/-- The templates of the settings are registered one by one, up to the first that fails. -/
theorem Shows.run_forM (h : Shows settings s.engine r) (entries : List (String × String)) :
    ∃ result s', (entries.forM fun entry => do
        let _ ← addSource entry.1 entry.2).run s = (result, s') ∧
      match entries.foldlM (Registries.addSource settings) r with
      | .error fault => result = .error fault
      | .ok r' => result = .ok () ∧ Shows settings s'.engine r' := by
  induction entries generalizing s r with
  | nil => exact ⟨.ok (), s, rfl, rfl, h⟩
  | cons entry entries ih =>
    obtain ⟨houtcome, hshows⟩ := h.run_addSource entry.1 entry.2
    rw [List.foldlM_cons, Registries.addSource]
    simp only [List.forM, run_bind]
    rcases hadd : (addSource entry.1 entry.2).run s with ⟨fault | compiled, s'⟩ <;>
      rw [hadd] at houtcome hshows <;>
      rcases hserve : Registries.serve settings r (.addSource entry.1 entry.2) with
        ⟨outcome, r'⟩ <;>
      rw [hserve] at houtcome hshows <;> obtain rfl := houtcome
    · exact ⟨.error fault, s', rfl, rfl⟩
    · exact ih hshows

theorem make_eq (settings : Settings) :
    match Registries.make settings with
    | .error fault => (make settings).1 = .error fault
    | .ok r => ∃ e, (make settings).1 = .ok e ∧ Shows settings e r := by
  rw [make, Registries.make]
  cases FormatterRegistry.ofModeName settings.autoescape with
  | error error => rfl
  | ok formatters =>
    have hfirst : Shows settings ⟨settings, formatters, [], []⟩ ⟨formatters, []⟩ :=
      ⟨rfl, rfl, rfl, by rintro source name compiled ⟨⟩⟩
    obtain ⟨result, s, hrun, hresult⟩ := hfirst.run_forM (s := ⟨_, []⟩) settings.templates
    have hconfigured : ∃ log, addConfigured.run ⟨⟨settings, formatters, [], []⟩, []⟩ =
        (result, { s with log }) := by
      rw [addConfigured, run_get_bind, run_bind]
      dsimp only
      rw [hrun]
      cases result with
      | error fault => exact ⟨s.log, rfl⟩
      | ok =>
        cases settings.templates.isEmpty with
        | true => exact ⟨s.log, rfl⟩
        | false => exact ⟨_, rfl⟩
    obtain ⟨log, hconfigured⟩ := hconfigured
    simp only [Except.mapError, bind, Except.bind, hconfigured]
    revert hresult
    cases settings.templates.foldlM (Registries.addSource settings) ⟨formatters, []⟩ with
    | error fault =>
      rintro rfl
      rfl
    | ok r =>
      rintro ⟨rfl, hshows⟩
      exact ⟨s.engine, rfl, hshows⟩

theorem Shows.outcomes_eq (h : Shows settings s.engine r) (history : List Operation) :
    serve.outcomes s history = (Registries.serve settings).outcomes r history ∧
      Shows settings (serve.after s history).engine ((Registries.serve settings).after r history) :=
  Server.outcomes_eq (R := fun (s : EngineState) r => Shows settings s.engine r)
    (fun _ _ o h => h.served o) h history

end Perform

end Engine

end TextTemplate
