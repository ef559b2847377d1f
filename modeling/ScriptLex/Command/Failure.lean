import ScriptLex.Diagnostic.Report
import ScriptLex.Files.Error
import ScriptLex.LexError
import ScriptLex.Options

/-!
# Failures of commands
-/

namespace ScriptLex

inductive Failure where
  | configurationNotFound (path : String)
  /-- Without the parser's account of the place and the cause, which the user reads behind it. -/
  | malformedConfiguration
  | unknownMode (mode : Mode.Unknown)
  | unknownFormat (name : String)
  | unreadableSource (path : String) (cause : FileError)
  | lexical (e : LexError) (source : String)
  | file (cause : FileError)
deriving DecidableEq, Repr

namespace Failure

def message : Failure → String
  | configurationNotFound path => "Configuration error: Configuration file not found: " ++ path
  | malformedConfiguration => "Configuration error: Failed to parse configuration"
  | unknownMode mode => "Configuration error: " ++ mode.message
  | unknownFormat name =>
    "Validation error: unknown output format `" ++ name ++ "` (expected text or json)"
  | unreadableSource path cause =>
    "File operation failed: cannot read " ++ path ++ ": " ++ cause.message
  | lexical e source => e.toDiagnostic.report source
  | file cause => "IO error: " ++ cause.message

/-- What the user gets to read: the report of a lexical error, or the message behind `error: `.
Names are quoted as they stand, line ends included. -/
def shown : Failure → String
  | lexical e source => (lexical e source).message
  | failure => "error: " ++ failure.message ++ "\n"

end Failure
end ScriptLex
