import ScriptLex.Text.Bytes

/-!
# Spans

A range of byte offsets together with the line and column of its first
character, both counted from one.
-/

namespace ScriptLex

inductive LocationError where
  | inverted (start stop : Nat)
  | noSuchLine (line count : Nat)
deriving DecidableEq, Repr

def LocationError.message : LocationError → String
  | .inverted start stop => s!"Invalid span: start {start} > end {stop}"
  | .noSuchLine line count => s!"Invalid line number: {line} (source has {count} lines)"

structure Span where
  start : Nat
  stop : Nat
  line : Nat
  column : Nat
deriving DecidableEq, Repr

namespace Span

def nowhere : Span := ⟨0, 0, 0, 0⟩

def checked? (start stop line column : Nat) : Except LocationError Span :=
  if stop < start then .error (.inverted start stop) else .ok ⟨start, stop, line, column⟩

def point (offset line column : Nat) : Span := ⟨offset, offset, line, column⟩

def isEmpty (s : Span) : Bool := s.start == s.stop

/-- Length in bytes; an inverted range has none. -/
def length (s : Span) : Nat := s.stop - s.start

def contains (s : Span) (offset : Nat) : Bool :=
  decide (s.start ≤ offset) && decide (offset < s.stop)

theorem contains_iff {s : Span} {offset : Nat} :
    s.contains offset = true ↔ s.start ≤ offset ∧ offset < s.stop := by
  simp [contains]

/-- The range from the earlier start to the later stop, at the line and column of `a`. -/
def join (a b : Span) : Span :=
  ⟨min a.start b.start, max a.stop b.stop, a.line, a.column⟩

def slice? (s : Span) (source : String) : Option String :=
  (Text.slice? s.start s.stop source.toList).map String.ofList

def place (s : Span) : String := s!"{s.line}:{s.column}"

end Span
end ScriptLex
