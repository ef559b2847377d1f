import ScriptLex.Output.Json
import ScriptLex.Text.Lines
import ScriptLex.Token

/-!
# Token output
-/

namespace ScriptLex

inductive OutputFormat where
  /-- One token per line. -/
  | text
  /-- An array of objects with the category and the literal of a token. -/
  | json
deriving DecidableEq, Repr

/-- A format by its name, in capital letters or small ones. Beyond ASCII no capital letter has one of
these letters as its small form. -/
def OutputFormat.ofName? (name : String) : Option OutputFormat :=
  let name := name.toList.map Char.toLower
  if name = "text".toList then some text
  else if name = "json".toList then some json
  else none

namespace Token

def toJson (t : Token) : Json.Value :=
  let literal := match t with
    | .number value => .number value.toNat
    | .fixed _ | .ident _ | .string _ => .string t.literal
  .object [("type", .string t.kind.label), ("literal", literal)]

def writeText (ts : List Token) : String := Text.unlines (ts.map display)

def writeJson (ts : List Token) : String := (Json.Value.array (ts.map toJson)).print 0 ++ "\n"

def write (ts : List Token) : OutputFormat → String
  | .text => writeText ts
  | .json => writeJson ts

end Token
end ScriptLex
