import ScriptLex.Toml.Reader.Value

/-!
# TOML documents

A document is read line by line into statements, which then build its tables.
-/

namespace ScriptLex.Toml

inductive Statement where
  | blank
  | assign (key : Reader.Key) (v : Value)
  /-- `[key]` -/
  | header (key : Reader.Key)
  /-- `[[key]]` -/
  | element (key : Reader.Key)
deriving Repr

namespace Reader

def statement? (cs : List Char) : Option (Statement × List Char) :=
  match skipSpaces cs with
  | '[' :: '[' :: cs =>
    match key? cs with
    | some (key, ']' :: ']' :: rest) => some (.element key, rest)
    | _ => none
  | '[' :: cs =>
    match key? cs with
    | some (key, ']' :: rest) => some (.header key, rest)
    | _ => none
  | [] => some (.blank, [])
  | c :: cs =>
    if c = '#' ∨ c = '\n' ∨ c = '\r' then some (.blank, c :: cs)
    else (assignment? (value? (depthLimit - 1)) (c :: cs)).map fun found =>
      (.assign found.1 found.2.1, found.2.2)

def statements? (cs : List Char) : Option (List Statement) :=
  match cs with
  | [] => some []
  | cs =>
    match statement? cs with
    | none => none
    | some (statement, rest) =>
      match restOfLine? rest with
      | none => none
      | some rest =>
        if rest.length < cs.length then (statements? rest).map (statement :: ·) else none
termination_by cs.length

end Reader

structure Document where
  root : Entries := []
  current : List String := []

namespace Document

def add? (d : Document) : Statement → Option Document
  | .blank => some d
  | .assign key v =>
    (d.root.below? (Entries.assign? key.path key.name v) d.current).map ({ d with root := · })
  | .header key =>
    (d.root.below? (Entries.openTable? key.name) key.path).map (⟨·, key.path ++ [key.name]⟩)
  | .element key =>
    (d.root.below? (Entries.openElement? key.name) key.path).map (⟨·, key.path ++ [key.name]⟩)

end Document

/-- The top table of a document. A byte order mark at its start does not count. -/
def read? (text : String) : Option Entries := do
  let cs := match text.toList with
    | '\uFEFF' :: cs => cs
    | cs => cs
  let statements ← Reader.statements? cs
  let document ← statements.foldlM Document.add? {}
  return document.root

end ScriptLex.Toml
