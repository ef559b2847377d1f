/-!
# Lexing options
-/

namespace ScriptLex

inductive Mode where
  /-- It is an error. -/
  | strict
  /-- It is skipped or repaired, and a warning is kept. -/
  | lenient
deriving DecidableEq, Repr, Inhabited

namespace Mode

def name : Mode → String
  | strict => "strict"
  | lenient => "lenient"

structure Unknown where
  text : String
deriving DecidableEq, Repr

def Unknown.message (u : Unknown) : String :=
  "unknown lex mode `" ++ u.text ++ "` (expected strict or lenient)"

def parse? (text : String) : Except Unknown Mode :=
  if text = strict.name then .ok strict
  else if text = lenient.name then .ok lenient
  else .error ⟨text⟩

end Mode

structure Options where
  mode : Mode := default
  emitEnd : Bool := false
deriving DecidableEq, Repr

def Options.isStrict (o : Options) : Bool := o.mode == .strict

end ScriptLex
