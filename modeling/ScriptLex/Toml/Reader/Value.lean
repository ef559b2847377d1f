import ScriptLex.Toml.Reader.Scalar
import ScriptLex.Toml.Reader.Text
import ScriptLex.Toml.Table

/-!
# Keys and values of TOML
-/

namespace ScriptLex.Toml.Reader

/-- Arrays and inline tables nest fewer levels than this, and a dotted key has fewer names. -/
def depthLimit : Nat := 80

def isBareKeyChar (c : Char) : Bool := c.isAlphanum || c == '_' || c == '-'

def simpleKey? : List Char → Option (String × List Char)
  | '\"' :: cs => (basic? cs).map fun found => (String.ofList found.1, found.2)
  | '\'' :: cs => (literal? cs).map fun found => (String.ofList found.1, found.2)
  | cs =>
    let name := cs.takeWhile isBareKeyChar
    if name.isEmpty then none else some (String.ofList name, cs.dropWhile isBareKeyChar)

def names? (cs : List Char) : Option (List String × List Char) :=
  match simpleKey? (skipSpaces cs) with
  | none => none
  | some (name, rest) =>
    match skipSpaces rest with
    | '.' :: later =>
      if later.length < cs.length then
        (names? later).map fun found => (name :: found.1, found.2)
      else
        none
    | rest => some ([name], rest)
termination_by cs.length

structure Key where
  /-- The tables on the way. -/
  path : List String
  name : String
deriving DecidableEq, Repr

def key? (cs : List Char) : Option (Key × List Char) :=
  (names? cs).bind fun found =>
    if found.1.length < depthLimit then
      found.1.getLast?.map fun name => (⟨found.1.dropLast, name⟩, found.2)
    else
      none

/-- Items up to the closing bracket; the last may have a comma behind it. -/
def items? (value? : List Char → Option (Value × List Char)) (cs : List Char) :
    Option (List Value × List Char) :=
  match skipLayout false cs with
  | ']' :: rest => some ([], rest)
  | start =>
    match value? start with
    | none => none
    | some (v, rest) =>
      match skipLayout false rest with
      | ']' :: rest => some ([v], rest)
      | ',' :: rest =>
        if rest.length < cs.length then
          (items? value? rest).map fun found => (v :: found.1, found.2)
        else
          none
      | _ => none
termination_by cs.length

def assignment? (value? : List Char → Option (Value × List Char)) (cs : List Char) :
    Option (Key × Value × List Char) :=
  match key? cs with
  | some (key, '=' :: rest) => (value? (skipSpaces rest)).map fun found => (key, found)
  | _ => none

/-- Assignments up to the closing brace, on one line and without a comma at the end. -/
def fields? (value? : List Char → Option (Value × List Char)) (es : Entries) (cs : List Char) :
    Option (Entries × List Char) :=
  match assignment? value? cs with
  | none => none
  | some (key, v, rest) =>
    match es.assign? key.path key.name v with
    | none => none
    | some es =>
      match skipSpaces rest with
      | '\x7d' :: rest => some (es, rest)
      | ',' :: rest => if rest.length < cs.length then fields? value? es rest else none
      | _ => none
termination_by cs.length

def inlineTable? (value? : List Char → Option (Value × List Char)) (cs : List Char) :
    Option (Entries × List Char) :=
  match skipSpaces cs with
  | '\x7d' :: rest => some ([], rest)
  | cs => fields? value? [] cs

def value? : Nat → List Char → Option (Value × List Char)
  | depth, '[' :: cs =>
    match depth with
    | 0 => none
    | depth + 1 => (items? (value? depth) cs).map fun found => (.array found.1, found.2)
  | depth, '\x7b' :: cs =>
    match depth with
    | 0 => none
    | depth + 1 => (inlineTable? (value? depth) cs).map fun found => (.table .inline found.1, found.2)
  | _, '\"' :: cs => (string? ('\"' :: cs)).map fun found => (.string (String.ofList found.1), found.2)
  | _, '\'' :: cs => (string? ('\'' :: cs)).map fun found => (.string (String.ofList found.1), found.2)
  | _, cs => unquoted? cs

end ScriptLex.Toml.Reader
