/-!
# Numerals

Runs of decimal digits, read into 64 bits and, beside that, as the natural
number they denote.
-/

namespace ScriptLex.Numeral

def digitValue (c : Char) : Nat := c.toNat - '0'.toNat

/-- The value of a run read so far, kept to 64 bits, and whether it ever needed more. -/
structure Register where
  value : UInt64 := 0
  overflowed : Bool := false
deriving DecidableEq, Repr

def Register.push (r : Register) (c : Char) : Register :=
  { value := r.value * 10 + UInt64.ofNat (digitValue c)
    overflowed := r.overflowed || decide (UInt64.size ≤ r.value.toNat * 10 + digitValue c) }

def read (digits : List Char) : Register := digits.foldl Register.push {}

def denoted (digits : List Char) : Nat :=
  digits.foldl (fun n c => 10 * n + digitValue c) 0

end ScriptLex.Numeral
