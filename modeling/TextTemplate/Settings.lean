import TextTemplate.Compile
import TextTemplate.Datum
import TextTemplate.Formatter.Registry
import TextTemplate.Log

/-! The settings of an engine, from plain data. What is given lies over the defaults; every value
has to be of its kind, and unknown names are left out with a warning. -/

namespace TextTemplate

/-- The bound on nesting counts for compiling and for rendering. -/
structure Settings where
  maxDepth : Int := defaultMaxDepth
  autoescape : String := EscapeMode.html.name
  strictConditions : Bool := false
  defaultFormatter : String := defaultFormatterName
  templates : NameMap String := []
  deriving DecidableEq

inductive SettingsProblem where
  | schema (found : String)
  | maxDepth (found : String)
  | autoescape (found : String)
  | strictConditions (found : String)
  | defaultFormatter
  | templates
  | malformed
  | notMapping
  deriving DecidableEq

def schemaVersion : Int := 1

namespace SettingsProblem

def message : SettingsProblem → String
  | schema found => s!"Unsupported config schema {found} (engine expects {schemaVersion})"
  | maxDepth found => s!"max_depth must be a positive integer, got {found}"
  | autoescape found => s!"autoescape must be one of {EscapeMode.available}, got {found}"
  | strictConditions found => s!"strict_conditions must be a boolean, got {found}"
  | defaultFormatter => "default_formatter must be a non-empty string"
  | templates => "templates must be a mapping of names to template sources"
  | malformed => "Invalid YAML"
  | notMapping => "YAML must be a mapping"

end SettingsProblem

structure SettingsError where
  problem : SettingsProblem
  source : String
  deriving DecidableEq

namespace SettingsError

def message (e : SettingsError) : String :=
  if e.source = "" then e.problem.message else s!"{e.source}: {e.problem.message}"

end SettingsError

/-- Why keys cannot be listed: not all are text, or they have no order. -/
inductive KeyFault where
  | notText (index : Nat) (typeName : String)
  | unordered (left right : String)
  deriving DecidableEq

namespace KeyFault

def message : KeyFault → String
  | notText index typeName =>
    s!"sequence item {index}: expected str instance, {typeName} found"
  | unordered left right =>
    s!"'<' not supported between instances of '{left}' and '{right}'"

end KeyFault

inductive SettingsFailure where
  | invalid (error : SettingsError)
  | method (fault : MethodFault)
  | keys (fault : KeyFault)
  deriving DecidableEq

abbrev Checking := Except SettingsFailure

namespace Settings

def knownNames : List String :=
  ["schema_version", "max_depth", "autoescape", "strict_conditions", "default_formatter",
    "templates"]

def textKey? : Datum → Option String
  | .text s => some s
  | _ => none

/-- The text that a key stands for. It need not be one itself. -/
def keyText? : Datum → Option String
  | .text s => some s
  | .foreign thing => thing.keyText?
  | _ => none

def unknownKeys (raw : List (Datum × Datum)) : List Datum :=
  (raw.map Prod.fst).filter fun key => !(keyText? key).any knownNames.contains

def rank? : Datum → Option Float
  | .truth b => some (if b then 1 else 0)
  | .integer n => some (Float.ofInt n)
  | .real x => some x
  | _ => none

/-- Whether two keys have an order: two texts, two numbers, two dates or two tuples. -/
def comparable : Datum → Datum → Bool
  | .text _, .text _ => true
  | .date .., .date .. => true
  | .tuple _, .tuple _ => true
  | a, b => (rank? a).isSome && (rank? b).isSome

def least (key : Datum) (others : List Datum) : Datum :=
  others.foldl (fun best d =>
    match rank? d, rank? best with
    | some x, some y => if x < y then d else best
    | _, _ => best) key

def keyFault : List Datum → KeyFault
  | [] => .notText 0 ""
  | key :: others =>
    match others.find? fun d => !comparable key d with
    | some d => .unordered d.typeName key.typeName
    | none => .notText 0 (least key others).typeName

def unknownEntries (raw : List (Datum × Datum)) : Checking Log :=
  match unknownKeys raw with
  | [] => .ok []
  | unknown =>
    match unknown.mapM textKey? with
    | none => .error (.keys (keyFault unknown))
    | some names =>
      let listed := String.intercalate ", " (names.mergeSort fun a b => a ≤ b)
      .ok [.warning s!"Ignoring unknown config keys: {listed}"]

def given? (raw : List (Datum × Datum)) (name : String) : Option Datum :=
  (raw.find? fun entry => keyText? entry.1 == some name).map Prod.snd

def refuse {α : Type} (source : String) (problem : SettingsProblem) : Checking α :=
  .error (.invalid ⟨problem, source⟩)

def ask {α : Type} (answer : Except MethodFault α) : Checking α :=
  answer.mapError .method

/-- Refuses a datum with its text in the message. -/
def refuseDatum {α : Type} (source : String) (problem : String → SettingsProblem)
    (text : Except MethodFault String) : Checking α := do
  refuse source (problem (← ask text))

/-- Whether a datum is worth the version of the schema. -/
def isCurrent : Datum → Except MethodFault Bool
  | .foreign thing => thing.isOne
  | d => .ok (d.asInteger? == some schemaVersion)

def checkSchema (source : String) (d : Datum) : Checking Unit := do
  if ← ask (isCurrent d) then return () else refuseDatum source .schema d.plainText

def checkMaxDepth (source : String) (d : Datum) : Checking Int :=
  match d with
  | .integer n => if 1 ≤ n then .ok n else refuseDatum source .maxDepth d.literalText
  | d => refuseDatum source .maxDepth d.literalText

/-- The text that a datum equals. -/
def equalText? : Datum → Except MethodFault (Option String)
  | .text s => .ok (some s)
  | .foreign thing => thing.equalText?
  | _ => .ok none

def checkAutoescape (source : String) (d : Datum) : Checking String := do
  match (← ask (equalText? d)).filter fun s => (EscapeMode.ofName? s).isSome with
  | some mode => return mode
  | none => refuseDatum source .autoescape d.literalText

def checkStrictConditions (source : String) (d : Datum) : Checking Bool :=
  match d with
  | .truth b => .ok b
  | d => refuseDatum source .strictConditions d.literalText

def checkDefaultFormatter (source : String) (d : Datum) : Checking String :=
  match d with
  | .text s => if s = "" then refuse source .defaultFormatter else .ok s
  | _ => refuse source .defaultFormatter

/-- Whether a datum counts as nothing. -/
def isNothing : Datum → Except MethodFault Bool
  | .null => .ok true
  | .truth b => .ok !b
  | .integer n => .ok (n == 0)
  | .real x => .ok (x == 0)
  | .text s => .ok (s == "")
  | .list items => .ok items.isEmpty
  | .tuple items => .ok items.isEmpty
  | .map entries => .ok entries.isEmpty
  | .value (.sequence items) => .ok items.isEmpty
  | .value (.record fields) => .ok fields.isEmpty
  | .value _ | .date .. => .ok false
  | .foreign thing => thing.isTrue.map not

def templateEntry? : Datum × Datum → Option (String × String)
  | (.text name, .text source) => some (name, source)
  | _ => none

def checkTemplates (source : String) (d : Datum) : Checking (NameMap String) := do
  if ← ask (isNothing d) then return []
  else
    match d with
    | .map entries =>
      match entries.mapM templateEntry? with
      | some templates => return templates
      | none => refuse source .templates
    | _ => refuse source .templates

/-- A value of its kind where one is given, and the default otherwise. -/
def checked {α : Type} (raw : List (Datum × Datum)) (name : String)
    (check : Datum → Checking α) (default : α) : Checking α :=
  match given? raw name with
  | some d => check d
  | none => .ok default

def check (raw : List (Datum × Datum)) (source : String) : Checking Settings := do
  let defaults : Settings := {}
  checked raw "schema_version" (checkSchema source) ()
  let maxDepth ← checked raw "max_depth" (checkMaxDepth source) defaults.maxDepth
  let autoescape ← checked raw "autoescape" (checkAutoescape source) defaults.autoescape
  let strictConditions ←
    checked raw "strict_conditions" (checkStrictConditions source) defaults.strictConditions
  let defaultFormatter ←
    checked raw "default_formatter" (checkDefaultFormatter source) defaults.defaultFormatter
  let templates ← checked raw "templates" (checkTemplates source) defaults.templates
  return { maxDepth, autoescape, strictConditions, defaultFormatter, templates }

/-- The settings of a mapping, with what is to be logged about it in either case. -/
def ofEntries (raw : List (Datum × Datum)) (source : String) : Checking Settings × Log :=
  match unknownEntries raw with
  | .error failure => (.error failure, [])
  | .ok log => (check raw source, log)

end Settings

/-- Why a document is not read: it is no YAML, or its loader raises another exception. -/
inductive LoadFault where
  | malformed
  | raised (exception : Raised)
  deriving DecidableEq

abbrev Loader := String → Except LoadFault Datum

namespace Settings

/-- The settings of a document that was read from `path`. One that counts as nothing gives the
defaults. -/
def ofDocument (document : Datum) (path : String) : Checking Settings × Log :=
  let loaded (raw : List (Datum × Datum)) : Checking Settings × Log :=
    let (settings, log) := ofEntries raw path
    (settings, .debug s!"Loaded engine config from {path}" :: log)
  match isNothing document, document with
  | .error fault, _ => (.error (.method fault), [])
  | .ok true, _ => loaded []
  | .ok false, .map raw => loaded raw
  | .ok false, _ => (refuse path .notMapping, [])

/-- The settings of the file at `path` with these contents; a file that is missing gives the
defaults. -/
def load (read : Loader) (path : String) (contents : Option String) : Checking Settings × Log :=
  match contents with
  | none => (.ok {}, [])
  | some text =>
    match read text with
    | .ok document => ofDocument document path
    | .error .malformed => (refuse path .malformed, [])
    | .error (.raised exception) => (.error (.method (.raised exception)), [])

end Settings

end TextTemplate
