/-!
# Values of TOML documents

Tables remember how they came to be, because that decides what may still be
added to them. Numbers with a fraction and moments in time are told apart from
other values but not kept.
-/

namespace ScriptLex.Toml

inductive Origin where
  /-- Under a header of its own, or as the document itself. -/
  | header
  /-- Only as part of the header of a table below it. -/
  | implied
  /-- By a dotted key. -/
  | dotted
  /-- Between braces. -/
  | inline
deriving DecidableEq, Repr

inductive Value where
  | string (text : String)
  | integer (n : Int)
  | float
  | boolean (b : Bool)
  | moment
  | array (items : List Value)
  | table (origin : Origin) (entries : List (String × Value))
  /-- Tables under repeated headers in double brackets. -/
  | tables (elements : List (List (String × Value)))
deriving Repr, Inhabited

abbrev Entries := List (String × Value)

namespace Entries

def get? (es : Entries) (key : String) : Option Value := List.lookup key es

/-- Replaces the value of a key in its place, or adds the key at the end. -/
def put (es : Entries) (key : String) (v : Value) : Entries :=
  match es with
  | [] => [(key, v)]
  | (k, old) :: rest => if k = key then (key, v) :: rest else (k, old) :: put rest key v

def add? (es : Entries) (key : String) (v : Value) : Option Entries :=
  match es.get? key with
  | some _ => none
  | none => some (es.put key v)

end Entries
end ScriptLex.Toml
