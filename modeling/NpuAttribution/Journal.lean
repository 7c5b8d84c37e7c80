/-!
# `NpuAttribution.Journal`: lines for the operator

Whatever the monitor has to tell its operator besides its results is a journal
line: a level and a text. The modules below report their findings as values of
their own types, and each such type says once how it reads as a line.
-/

set_option autoImplicit false

namespace NpuAttribution

/-- How urgent a journal line is. -/
inductive Level
  | error
  | warn
  | info
  | debug
  deriving DecidableEq, Repr

/-- The name of a level at the head of a line. -/
def Level.label : Level → String
  | .error => "ERROR"
  | .warn => "WARN"
  | .info => "INFO"
  | .debug => "DEBUG"

/-- One journal line. -/
structure Line where
  level : Level
  text : String
  deriving DecidableEq, Repr

/-- The line as it is written, its level first. -/
def Line.render (l : Line) : String :=
  l.level.label ++ " " ++ l.text

end NpuAttribution
