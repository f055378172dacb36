import TextTemplate.Formatter.Builtin
import TextTemplate.Log

/-! Registries of formatters. A name that is registered again changes its formatter. -/

namespace TextTemplate

def defaultFormatterName : String := "default"

inductive EscapeMode where
  | html
  | none
  deriving DecidableEq

namespace EscapeMode

def name : EscapeMode → String
  | html => "html"
  | none => "none"

def all : List EscapeMode := [html, none]

def available : String :=
  String.intercalate ", " (all.map name)

def ofName? (name : String) : Option EscapeMode :=
  all.find? (EscapeMode.name · == name)

def formatter : EscapeMode → Builtin
  | html => .html
  | none => .plain

end EscapeMode

structure UnknownEscapeMode where
  name : String
  deriving DecidableEq

namespace UnknownEscapeMode

def message (e : UnknownEscapeMode) : String :=
  s!"Unknown autoescape mode '{e.name}'. Available modes: {EscapeMode.available}"

end UnknownEscapeMode

/-- What was to be registered as a formatter cannot be called. -/
structure NotCallable where
  name : String
  deriving DecidableEq

namespace NotCallable

def message (e : NotCallable) : String :=
  s!"Formatter '{e.name}' must be callable"

end NotCallable

abbrev FormatterRegistry := NameMap Formatter

namespace FormatterRegistry

def builtin : FormatterRegistry :=
  Builtin.table.map fun entry => (entry.1, entry.2.formatter)

def standard (mode : EscapeMode) : FormatterRegistry :=
  NameMap.put defaultFormatterName mode.formatter.formatter builtin

def ofModeName (name : String) : Except UnknownEscapeMode FormatterRegistry :=
  match EscapeMode.ofName? name with
  | some mode => .ok (standard mode)
  | none => .error ⟨name⟩

/-- Registers a candidate; `none` is one that cannot be called. -/
def register (r : FormatterRegistry) (name : String) (candidate : Option Formatter) :
    Except NotCallable (FormatterRegistry × Log) :=
  match candidate with
  | none => .error ⟨name⟩
  | some f =>
    .ok (NameMap.put name f r,
      if NameMap.contains r name then
        [.warning s!"Formatter '{name}' overwrites existing formatter"]
      else [])

end FormatterRegistry

end TextTemplate
