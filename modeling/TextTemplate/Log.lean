/-! Entries for a log. Operations hand them back beside their results. -/

namespace TextTemplate

inductive LogLevel where
  | debug
  | warning
  deriving DecidableEq

namespace LogLevel

def name : LogLevel → String
  | debug => "DEBUG"
  | warning => "WARNING"

end LogLevel

structure LogEntry where
  level : LogLevel
  message : String
  deriving DecidableEq

abbrev Log := List LogEntry

namespace LogEntry

def debug (message : String) : LogEntry := ⟨.debug, message⟩

def warning (message : String) : LogEntry := ⟨.warning, message⟩

end LogEntry

end TextTemplate
