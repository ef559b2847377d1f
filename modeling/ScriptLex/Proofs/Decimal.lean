import ScriptLex.Numeral

/-!
# Reading digits is exact modulo `2 ^ 64`

The register holds the number read so far modulo `2 ^ 64`, and its flag says
whether that number, not its remainder, ever reached `2 ^ 64`.
-/

namespace ScriptLex.Numeral

def Register.of (n : Nat) : Register := ⟨UInt64.ofNat n, decide (UInt64.size ≤ n)⟩

/-- One more digit keeps the register exact. The flag is sticky because the
number itself only grows, whatever its remainder does. -/
theorem push_of (n : Nat) (c : Char) :
    (Register.of n).push c = Register.of (10 * n + digitValue c) := by
  have hvalue : UInt64.ofNat n * 10 + UInt64.ofNat (digitValue c) =
      UInt64.ofNat (10 * n + digitValue c) := by
    rw [UInt64.ofNat_add, UInt64.ofNat_mul, UInt64.mul_comm]
    rfl
  have hflag : (UInt64.size ≤ n ∨ UInt64.size ≤ n % UInt64.size * 10 + digitValue c) ↔
      UInt64.size ≤ 10 * n + digitValue c := by
    rcases Nat.lt_or_ge n UInt64.size with hn | hn
    · rw [Nat.mod_eq_of_lt hn]
      omega
    · omega
  have hn : (UInt64.ofNat n).toNat = n % UInt64.size := UInt64.toNat_ofNat'
  simp only [Register.push, Register.of, hvalue, hn]
  rw [← Bool.decide_or, decide_eq_decide.mpr hflag]

theorem read_eq_of (digits : List Char) : read digits = Register.of (denoted digits) := by
  have h (n : Nat) (cs : List Char) : cs.foldl Register.push (Register.of n) =
      Register.of (cs.foldl (fun n c => 10 * n + digitValue c) n) := by
    induction cs generalizing n with
    | nil => rfl
    | cons c cs ih => rw [List.foldl_cons, List.foldl_cons, push_of, ih]
  exact h 0 digits

theorem value_read (digits : List Char) :
    (read digits).value = UInt64.ofNat (denoted digits) := by
  rw [read_eq_of]
  rfl

theorem overflowed_read (digits : List Char) :
    (read digits).overflowed = decide (UInt64.size ≤ denoted digits) := by
  rw [read_eq_of]
  rfl

end ScriptLex.Numeral
