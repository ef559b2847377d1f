import ScriptLex.Toml.Value

/-!
# Building tables

Where keys and headers may go: a value is set once, a header opens a table
once, and a dotted key reaches only into tables that dotted keys made.
-/

namespace ScriptLex.Toml.Entries

def onLast? (f : Entries → Option Entries) : List Entries → Option (List Entries)
  | [] => none
  | [last] => (f last).map fun changed => [changed]
  | first :: rest => (onLast? f rest).map (first :: ·)

/-- Sets a value below tables named by `path`, as a dotted key does. On the way it passes tables
without a header of their own, and the last table has to come from a dotted key. -/
def assign? (path : List String) (key : String) (v : Value) (es : Entries) : Option Entries :=
  match path with
  | [] => es.add? key v
  | name :: path =>
    match es.get? name with
    | none => (assign? path key v []).map fun below => es.put name (.table .dotted below)
    | some (.table .dotted below) =>
      (assign? path key v below).map fun below => es.put name (.table .dotted below)
    | some (.table .implied below) =>
      if path.isEmpty then none
      else (assign? path key v below).map fun below => es.put name (.table .implied below)
    | some (.tables elements) =>
      if path.isEmpty then none
      else (onLast? (assign? path key v) elements).map fun elements => es.put name (.tables elements)
    | some _ => none

/-- Changes the tables around `path` and the one in which its last name stands. Tables that are
missing on the way are implied; of a list of tables the last one is meant. -/
def below? (f : Entries → Option Entries) (path : List String) (es : Entries) : Option Entries :=
  match path with
  | [] => f es
  | name :: path =>
    match es.get? name with
    | none => (below? f path []).map fun below => es.put name (.table .implied below)
    | some (.table .inline _) => none
    | some (.table origin below) =>
      (below? f path below).map fun below => es.put name (.table origin below)
    | some (.tables elements) =>
      (onLast? (below? f path) elements).map fun elements => es.put name (.tables elements)
    | some _ => none

/-- Opens the table of a header. Only a table that other headers implied may be there already. -/
def openTable? (key : String) (es : Entries) : Option Entries :=
  match es.get? key with
  | none => some (es.put key (.table .header []))
  | some (.table .implied below) => some (es.put key (.table .header below))
  | some _ => none

def openElement? (key : String) (es : Entries) : Option Entries :=
  match es.get? key with
  | none => some (es.put key (.tables [[]]))
  | some (.tables elements) => some (es.put key (.tables (elements ++ [[]])))
  | some _ => none

end ScriptLex.Toml.Entries
