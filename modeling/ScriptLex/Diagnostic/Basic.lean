import ScriptLex.Diagnostic.Code
import ScriptLex.Span

/-!
# Diagnostics

A message about a place in the source, with a severity and optional advice.
-/

namespace ScriptLex

inductive Level where
  | error
  | warning
  | note
  | help
deriving DecidableEq, Repr

def Level.name : Level → String
  | .error => "error"
  | .warning => "warning"
  | .note => "note"
  | .help => "help"

structure Diagnostic where
  level : Level
  message : String
  span : Span := Span.nowhere
  code : Option Code := none
  notes : List String := []
  helps : List String := []
deriving DecidableEq, Repr

namespace Diagnostic

def error (message : String) (span : Span) : Diagnostic := { level := .error, message, span }

def warning (message : String) (span : Span) : Diagnostic := { level := .warning, message, span }

def locatedAt (d : Diagnostic) (span : Span) : Diagnostic := { d with span }

def withCode (d : Diagnostic) (code : Code) : Diagnostic := { d with code := some code }

def withNote (d : Diagnostic) (note : String) : Diagnostic := { d with notes := d.notes ++ [note] }

def withHelp (d : Diagnostic) (help : String) : Diagnostic := { d with helps := d.helps ++ [help] }

def header (d : Diagnostic) : String :=
  match d.code with
  | some code => s!"{d.level.name}[{code.text}]: {d.message}"
  | none => s!"{d.level.name}: {d.message}"

def summary (d : Diagnostic) : String := s!"{d.header} at {d.span.place}"

end Diagnostic
end ScriptLex
