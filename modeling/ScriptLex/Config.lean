import ScriptLex.Toml.Reader.Document
import ScriptLex.Toml.Writer

/-!
# Configuration

Settings that a command line does not give, kept in a TOML document. A key that
the document leaves out has its default, and unknown keys do not matter.
-/

namespace ScriptLex

structure Config where
  verbose : Bool := false
  /-- Name of the lexing mode; it is judged only where it is used. -/
  mode : String := "strict"
  emitEnd : Bool := false
  /-- Name of the output format; it is judged only where it is used. -/
  format : String := "text"
deriving DecidableEq, Repr

namespace Config

open Toml

def write (c : Config) : String :=
  "verbose = " ++ Writer.boolean c.verbose ++ "\n\n[lex]\nmode = " ++ Writer.string c.mode ++
    "\nemit_eof = " ++ Writer.boolean c.emitEnd ++ "\n\n[output]\nformat = " ++
    Writer.string c.format ++ "\n"

/-- A value that may be missing; any value of another type is wrong. -/
def boolean? (default : Bool) : Option Value → Option Bool
  | none => some default
  | some (.boolean b) => some b
  | some _ => none

def string? (default : String) : Option Value → Option String
  | none => some default
  | some (.string s) => some s
  | some _ => none

/-- Where a section keeps its values: under names, or in order. -/
def field? (name : String) (index : Nat) : Value → Option (Option Value)
  | .table _ es => some (Entries.get? es name)
  | .array items => some items[index]?
  | .tables elements => some ((elements.map (.table .header))[index]?)
  | .moment => some none
  | _ => none

/-- One value of a section. A missing section has no values; a section that is neither a table
nor a list is wrong. -/
def sectionField? (root : Entries) (title name : String) (index : Nat) : Option (Option Value) :=
  match root.get? title with
  | none => some none
  | some content => field? name index content

def ofEntries? (root : Entries) : Option Config := do
  let d : Config := {}
  let verbose ← boolean? d.verbose (root.get? "verbose")
  let mode ← string? d.mode (← sectionField? root "lex" "mode" 0)
  let emitEnd ← boolean? d.emitEnd (← sectionField? root "lex" "emit_eof" 1)
  let format ← string? d.format (← sectionField? root "output" "format" 0)
  return { verbose, mode, emitEnd, format }

def parse? (text : String) : Option Config := (Toml.read? text).bind ofEntries?

end Config
end ScriptLex
