import TextTemplate.Render
import TextTemplate.Settings

/-! An engine: settings, a registry of formatters and a library of templates kept together, with
every text compiled once under each name. -/

namespace TextTemplate

/-- A template as an engine compiled it. The serial number tells compilations apart. -/
structure Compiled where
  serial : Nat
  template : Template

inductive EngineFault where
  | escapeMode (error : UnknownEscapeMode)
  | compile (error : CompileError)
  | notCallable (error : NotCallable)
  | notRegistered (name : String)
  | data (fault : DataFault)
  | interrupted (interruption : Interruption) (output : String)
  deriving DecidableEq

namespace EngineFault

def notRegisteredMessage (name : String) : String :=
  s!"Template '{name}' is not registered"

end EngineFault

/-- The cache holds what was compiled from each name and source, in the order of compiling. -/
structure Engine where
  settings : Settings
  formatters : FormatterRegistry
  library : Library
  cache : List ((String × String) × Compiled)

/-- An engine at work, and what it has logged. -/
structure EngineState where
  engine : Engine
  log : Log

abbrev EngineM := ExceptT EngineFault (StateM EngineState)

namespace Engine

def report (entries : Log) : EngineM Unit :=
  modify fun s => { s with log := s.log ++ entries }

def update (f : Engine → Engine) : EngineM Unit :=
  modify fun s => { s with engine := f s.engine }

def cached? (e : Engine) (source name : String) : Option Compiled :=
  e.cache.lookup (name, source)

def setup (e : Engine) : Setup :=
  ⟨e.formatters, some e.library, e.settings.strictConditions, e.settings.defaultFormatter⟩

/-- Compiles a text that has not been compiled under this name before. -/
def compileFresh (source name : String) : EngineM Compiled := do
  let e := (← get).engine
  match Template.compile source name e.settings.maxDepth with
  | .error error => throw (.compile error)
  | .ok template =>
    let compiled : Compiled := ⟨e.cache.length, template⟩
    report [template.compiledEntry]
    update fun e => { e with cache := e.cache ++ [((name, source), compiled)] }
    return compiled

def compile (source name : String) : EngineM Compiled := do
  match (← get).engine.cached? source name with
  | some compiled => return compiled
  | none => compileFresh source name

def addTemplate (name : String) (compiled : Compiled) : EngineM Compiled := do
  let (library, log) := (← get).engine.library.register name compiled.template
  update fun e => { e with library }
  report log
  return compiled

def addSource (name source : String) : EngineM Compiled := do
  addTemplate name (← compile source name)

def registerFormatter (name : String) (candidate : Option Formatter) : EngineM Unit := do
  match (← get).engine.formatters.register name candidate with
  | .error error => throw (.notCallable error)
  | .ok (formatters, log) =>
    update fun e => { e with formatters }
    report log

def render (t : Template) (root : Datum) : EngineM String := do
  let e := (← get).engine
  match root.toValue with
  | .error fault => throw (.data fault)
  | .ok root =>
    let rendering := t.render e.setup e.settings.maxDepth root
    match rendering.interruption with
    | some interruption => throw (.interrupted interruption rendering.text)
    | none =>
      report [t.renderedEntry rendering]
      return rendering.text

def renderNamed (name : String) (root : Datum) : EngineM String := do
  match (← get).engine.library.get? name with
  | some t => render t root
  | none => throw (.notRegistered name)

def renderSource (source name : String) (root : Datum) : EngineM String := do
  let compiled ← compile source name
  render compiled.template root

/-- Registers the templates of the settings, in their order. -/
def addConfigured : EngineM Unit := do
  let templates := (← get).engine.settings.templates
  templates.forM fun entry => do
    let _ ← addSource entry.1 entry.2
  unless templates.isEmpty do
    report [.debug s!"Registered {templates.length} templates from config"]

/-- An engine with these settings, and what was logged while it was made. -/
def make (settings : Settings) : Except EngineFault Engine × Log :=
  match FormatterRegistry.ofModeName settings.autoescape with
  | .error error => (.error (.escapeMode error), [])
  | .ok formatters =>
    let (result, s) := addConfigured.run ⟨⟨settings, formatters, [], []⟩, []⟩
    (result.map fun _ => s.engine, s.log)

end Engine

end TextTemplate
