/-!
# Log lines

Events of a run, one line each: the severity, the message, and named fields.
-/

namespace ScriptLex.Log

inductive Severity where
  | debug
  | info
  | warn
deriving DecidableEq, Repr

namespace Severity

def label : Severity → String
  | debug => "DEBUG"
  | info => " INFO"
  | warn => " WARN"

def colour : Severity → String
  | debug => "34"
  | info => "32"
  | warn => "33"

end Severity

structure Event where
  severity : Severity
  message : String
  fields : List (String × String) := []
deriving DecidableEq, Repr

def styled (style text : String) : String := "\x1b[" ++ style ++ "m" ++ text ++ "\x1b[0m"

namespace Event

/-- The line of an event, behind the time stamp that a logger writes first and that is left out. -/
def line (coloured : Bool) (e : Event) : String :=
  let label := if coloured then styled e.severity.colour e.severity.label else e.severity.label
  let field (f : String × String) : String :=
    if coloured then " " ++ styled "3" f.1 ++ styled "2" "=" ++ f.2 else " " ++ f.1 ++ "=" ++ f.2
  label ++ " " ++ e.message ++ String.join (e.fields.map field)

def isShown (verbose : Bool) (e : Event) : Bool := verbose || e.severity != .debug

end Event
end ScriptLex.Log
