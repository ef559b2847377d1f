import ScriptLex.Diagnostic.Basic

/-!
# Collecting diagnostics

Diagnostics are kept in the order in which they were emitted until they are
taken.
-/

namespace ScriptLex

structure Collector where
  held : Array Diagnostic := #[]
deriving DecidableEq, Repr

namespace Collector

def empty : Collector := {}

def emit (c : Collector) (d : Diagnostic) : Collector := ⟨c.held.push d⟩

def diagnostics (c : Collector) : List Diagnostic := c.held.toList

def take (c : Collector) : List Diagnostic × Collector := (c.diagnostics, empty)

def count (c : Collector) (level : Level) : Nat :=
  c.diagnostics.countP (·.level = level)

def errorCount (c : Collector) : Nat := c.count .error

def warningCount (c : Collector) : Nat := c.count .warning

def total (c : Collector) : Nat := c.diagnostics.length

def hasErrors (c : Collector) : Bool := c.diagnostics.any (·.level = .error)

@[simp] theorem diagnostics_empty : empty.diagnostics = [] := rfl

@[simp] theorem diagnostics_emit (c : Collector) (d : Diagnostic) :
    (c.emit d).diagnostics = c.diagnostics ++ [d] := by
  simp [emit, diagnostics]

end Collector
end ScriptLex
