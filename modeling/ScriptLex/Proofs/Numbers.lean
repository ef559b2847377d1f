import Mathlib.Data.Nat.Digits.Defs
import ScriptLex.Proofs.Location
import ScriptLex.Proofs.Machine.Lexer

/-!
# Numbers are exact modulo `2 ^ 64`

Wherever operations have brought a lexer, a number is the whole run of digits
ahead. `number_exact` says what it answers, and that the flag for numbers that
do not fit is right after every digit, whatever the remainder is by then.
-/

namespace ScriptLex

-- ---------------------------------------------------------------------------
-- Registers
-- ---------------------------------------------------------------------------

namespace Numeral

/-- The register holds `n` as far as it can, and its flag says whether `n` fits. -/
structure Register.Holds (r : Register) (n : Nat) : Prop where
  value_eq : r.value.toNat = n % 2 ^ 64
  overflowed_iff : r.overflowed = true ↔ 2 ^ 64 ≤ n

theorem holds_read (digits : List Char) : (read digits).Holds (denoted digits) := by
  constructor
  · rw [value_read]
    exact UInt64.toNat_ofNat'
  · rw [overflowed_read, decide_eq_true_iff]
    rfl

theorem denoted_eq_ofDigits (digits : List Char) :
    denoted digits = Nat.ofDigits 10 (digits.reverse.map digitValue) := by
  induction digits using List.reverseRecOn with
  | nil => rfl
  | append_singleton digits c ih =>
    rw [denoted, List.foldl_append, ← denoted, ih, List.reverse_append]
    simp [Nat.ofDigits_cons, Nat.add_comm]

end Numeral

def Machine.register (digits : List Char) : Numeral.Register :=
  digits.foldl (fun r c => push r (UInt64.ofNat (Numeral.digitValue c))) {}

theorem Machine.register_eq (h : ∀ c ∈ digits, c.isDigit = true) :
    register digits = Numeral.read digits :=
  List.foldl_ext _ _ _ fun r c hc => push_eq r (h c hc)

-- ---------------------------------------------------------------------------
-- Lexers on the way
-- ---------------------------------------------------------------------------

namespace Lexer

variable {l : Lexer} {source : List Char}

theorem standsIn_scanToken (hs : l.cursor.StandsIn source) :
    l.scanToken.lexer.cursor.StandsIn source := by
  by_cases hr : l.cursor.rest = []
  · simpa [scanToken, hr] using hs
  · obtain ⟨p, rest, hp, -, heq⟩ := exists_scanToken_eq hs.column_pos hr
    rw [heq, cursor_passing]
    exact hs.pass hp

theorem standsIn_next (hs : l.cursor.StandsIn source) : l.next.2.cursor.StandsIn source := by
  fun_induction next l with
  | case1 l hr => exact hs
  | case2 l ch rest hr step token ht => exact standsIn_scanToken hs
  | case3 l ch rest hr step ht ih => exact ih (standsIn_scanToken hs)
  | case4 l ch rest hr step e ht => exact standsIn_scanToken hs

theorem cursor_number (l : Lexer) :
    l.number.lexer.cursor = l.cursor.eatWhile Char.isDigit := by
  unfold number
  dsimp only
  split
  · split <;> rfl
  · rfl

theorem cursor_stringText (l : Lexer) :
    l.stringText.lexer.cursor = l.cursor.eatWhile isStringChar := by
  unfold stringText
  dsimp only
  split
  · split <;> rfl
  · rfl

theorem standsIn_perform (hs : l.cursor.StandsIn source) (op : Operation) :
    (l.perform op).2.cursor.StandsIn source := by
  cases op with
  | scanToken => exact standsIn_scanToken hs
  | next =>
    have hnext := standsIn_next hs
    simp only [perform]
    split
    · next h => rwa [h] at hnext
    · next h => rwa [h] at hnext
  | advance => exact Cursor.standsIn_advance hs
  | skipBlanks => exact Cursor.standsIn_eatWhile hs isBlank
  | number =>
    simp only [perform]
    split
    · rw [cursor_number]
      exact Cursor.standsIn_eatWhile hs Char.isDigit
    · exact hs
  | word =>
    simp only [perform]
    split
    · exact Cursor.standsIn_eatWhile hs Char.isAlpha
    · exact hs
  | stringText =>
    simp only [perform, cursor_stringText]
    exact Cursor.standsIn_eatWhile hs isStringChar
  | diagnostics | take => exact hs

theorem standsIn_performAll (hs : l.cursor.StandsIn source) (ops : List Operation) :
    (l.performAll ops).2.cursor.StandsIn source := by
  induction ops generalizing l with
  | nil => exact hs
  | cons op ops ih => exact ih (standsIn_perform hs op)

end Lexer

-- ---------------------------------------------------------------------------
-- Numbers
-- ---------------------------------------------------------------------------

theorem Cursor.exists_digits {c : Cursor} (h : c.current.isDigit = true) :
    ∃ digits rest, c.rest = digits ++ rest ∧ IsRun Char.isDigit digits rest := by
  rw [current] at h
  cases hr : c.rest with
  | nil =>
    rw [hr] at h
    contradiction
  | cons ch rest =>
    rw [hr] at h
    exact ⟨_, _, List.takeWhile_append_dropWhile.symm, isRun_takeWhile h rest⟩

namespace Lexer

variable {l : Lexer} {digits rest : List Char}

section
variable (hd : IsLongest Char.isDigit digits rest) (hr : l.cursor.rest = digits ++ rest)
include hd hr

theorem number_of_lt (h : Numeral.denoted digits < 2 ^ 64) :
    l.number = ⟨.ok (UInt64.ofNat (Numeral.denoted digits)), l.pass digits⟩ := by
  have hfits : ¬ UInt64.size ≤ Numeral.denoted digits := Nat.not_le.mpr h
  simp [number, hr, hd.takeWhile_eq, eatWhile_eq_pass, Numeral.overflowed_read,
    Numeral.value_read, hfits]

theorem number_of_le (h : 2 ^ 64 ≤ Numeral.denoted digits) :
    l.number =
      if l.isStrict then
        ⟨.error (.integerOverflow (String.ofList digits) (l.cursor.spanOf digits)), l.pass digits⟩
      else
        ⟨.ok (UInt64.ofNat (Numeral.denoted digits)),
          (l.pass digits).warn (l.cursor.spanOf digits) ("integer literal `" ++
            String.ofList digits ++ "` wrapped to " ++
              toString (Numeral.denoted digits % 2 ^ 64)) .wrappedInteger⟩ := by
  have hbig : UInt64.size ≤ Numeral.denoted digits := h
  have hvalue : (UInt64.ofNat (Numeral.denoted digits)).toNat = Numeral.denoted digits % 2 ^ 64 :=
    UInt64.toNat_ofNat'
  simp only [number, hr, hd.takeWhile_eq, eatWhile_eq_pass, Numeral.overflowed_read,
    Numeral.value_read, hbig, decide_true, if_true, hvalue]
  rfl

end
end Lexer

/-- Scanning a number passes all digits ahead and answers with the number that they denote. A number
of `2 ^ 64` or more is an error in strict mode and its remainder in lenient mode, where one
warning says so. The flag behind this is right after every digit. -/
theorem number_exact {source : String} {options : Options} {start : Lexer}
    (hstart : Lexer.start? source options = .ok start) (ops : List Operation)
    (hdigit : (start.performAll ops).2.cursor.current.isDigit = true) :
    let l := (start.performAll ops).2
    ∃ digits rest, l.cursor.rest = digits ++ rest ∧ IsRun Char.isDigit digits rest ∧
      let n := Numeral.denoted digits
      let after := { l with cursor := l.number.lexer.cursor }
      n = Nat.ofDigits 10 (digits.reverse.map Numeral.digitValue) ∧
      after.cursor.rest = rest ∧
      after.cursor.consumed = l.cursor.consumed ++ String.ofList digits ∧
      (n < 2 ^ 64 → ∃ value, value.toNat = n ∧ l.number = ⟨.ok value, after⟩) ∧
      (2 ^ 64 ≤ n → ∃ span, span.Locates source l.cursor.consumed.toList digits rest ∧
        (l.isStrict = true →
          l.number = ⟨.error (.integerOverflow (String.ofList digits) span), after⟩) ∧
        (l.isStrict = false → ∃ value, value.toNat = n % 2 ^ 64 ∧
          l.number = ⟨.ok value, after.warn span ("integer literal `" ++ String.ofList digits ++
            "` wrapped to " ++ toString (n % 2 ^ 64)) .wrappedInteger⟩)) ∧
      ∀ front more, digits = front ++ more →
        Machine.register front = Numeral.read front ∧
          (Numeral.read front).Holds (Numeral.denoted front) := by
  intro l
  obtain ⟨rfl, -⟩ := Lexer.eq_start_of_start? hstart
  have hs : l.cursor.StandsIn source.toList :=
    Lexer.standsIn_performAll (Lexer.standsIn_start source options) ops
  obtain ⟨digits, rest, hr, hd⟩ := l.cursor.exists_digits hdigit
  have hcursor : l.number.lexer.cursor = l.cursor.pass digits := by
    rw [Lexer.cursor_number, Cursor.eatWhile_eq_pass, hr, hd.takeWhile_eq]
  have hpass : { l with cursor := l.number.lexer.cursor } = l.pass digits := by
    rw [hcursor]
    rfl
  have hvalue : (UInt64.ofNat (Numeral.denoted digits)).toNat =
      Numeral.denoted digits % 2 ^ 64 := UInt64.toNat_ofNat'
  refine ⟨digits, rest, hr, hd, Numeral.denoted_eq_ofDigits digits, ?_, ?_, fun h => ?_,
    fun h => ⟨l.cursor.spanOf digits, ?_, fun hstrict => ?_, fun hstrict => ?_⟩,
    fun front more hfront => ⟨Machine.register_eq fun c hc => ?_, Numeral.holds_read front⟩⟩
  · rw [hcursor, Cursor.rest_pass hr]
  · simp [hcursor, Cursor.consumed]
  · rw [hpass]
    exact ⟨_, hvalue.trans (Nat.mod_eq_of_lt h), Lexer.number_of_lt hd.toIsLongest hr h⟩
  · rw [Cursor.consumed, String.toList_ofList]
    exact hs.locates hr hd.ne_nil
  · rw [hpass, Lexer.number_of_le hd.toIsLongest hr h, if_pos hstrict]
  · rw [hpass, Lexer.number_of_le hd.toIsLongest hr h, if_neg (ne_true_of_eq_false hstrict)]
    exact ⟨_, hvalue, rfl⟩
  · exact hd.all c (hfront ▸ List.mem_append_left more hc)

/-- The remainder has gone down to zero by the last digit, which fits. -/
theorem number_exact_beyond_overflow :
    let source := "é\n1844674407370955161607;"
    ∃ start, Lexer.start? source ⟨.lenient, false⟩ = .ok start ∧
      let l := (start.performAll [.scanToken, .skipBlanks]).2
      l.cursor.current.isDigit = true ∧
        ∃ value, value.toNat = 7 ∧ l.number.answer = .ok value ∧
          l.number.lexer.cursor.rest = [';'] ∧
          l.number.lexer.collector.diagnostics.map Diagnostic.code =
            [some .droppedInput, some .wrappedInteger] := by
  intro source
  let start := Lexer.start source ⟨.lenient, false⟩
  let l := (start.performAll [.scanToken, .skipBlanks]).2
  have hstart : Lexer.start? source ⟨.lenient, false⟩ = .ok start := rfl
  have hdigit : l.cursor.current.isDigit = true := by decide +kernel
  have hrest : l.cursor.rest = "1844674407370955161607;".toList := by decide +kernel
  have hkept : l.collector.diagnostics.map Diagnostic.code = [some .droppedInput] := by
    decide +kernel
  obtain ⟨digits, rest, hr, hd, -, hafter, -, -, hbig, -⟩ := number_exact hstart _ hdigit
  have hdigits : digits = "1844674407370955161607".toList := by
    rw [← hd.takeWhile_eq, ← hr, hrest]
    decide +kernel
  obtain rfl : rest = [';'] := by
    rw [← hd.dropWhile_eq, ← hr, hrest]
    decide +kernel
  obtain ⟨span, -, -, hlenient⟩ := hbig (by rw [hdigits]; decide +kernel)
  obtain ⟨value, hvalue, hnumber⟩ := hlenient (by decide +kernel)
  refine ⟨start, hstart, hdigit, value, ?_, ?_, hafter, ?_⟩
  · rw [hvalue, hdigits]
    decide +kernel
  · rw [hnumber]
  · rw [hnumber, Lexer.warn, Collector.diagnostics_emit, List.map_append, hkept]
    rfl

end ScriptLex
