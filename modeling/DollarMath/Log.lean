import DollarMath.Text.Basic

/-!
# Log lines

What a program has to say about its run beside its output.
-/

namespace DollarMath

/-- How much a log line matters. -/
inductive LogLevel where
  /-- A detail of what was done. -/
  | debug
  /-- Something that was done. -/
  | info
  /-- A setting or input that was passed over. -/
  | warning
  /-- Something that could not be done. -/
  | error
  deriving DecidableEq, Repr

namespace LogLevel

/-- The word for a level. -/
def name : LogLevel → Text
  | .debug => "DEBUG"
  | .info => "INFO"
  | .warning => "WARNING"
  | .error => "ERROR"

end LogLevel

/-- One line of a log. -/
structure LogLine where
  /-- How much the line matters. -/
  level : LogLevel
  /-- What the line says. -/
  message : Text
  deriving DecidableEq, Repr

/-- Whether a log line says that something could not be done. -/
def LogLine.isError (line : LogLine) : Bool :=
  line.level == .error

end DollarMath
