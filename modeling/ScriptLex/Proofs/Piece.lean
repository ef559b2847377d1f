import ScriptLex.Lexer.Progress
import ScriptLex.Proofs.Decimal
import ScriptLex.Proofs.Passing

/-!
# One step, one piece

A scanning step passes one piece of the text ahead: a lexeme, a run of blanks,
or a character that makes no lexeme. `Piece.Fits` says which pieces can be cut
off the text ahead without looking at the scanner. Some piece always fits, and
`scanToken_eq` gives the whole effect of a step from any piece that does, so
nothing after this module opens a scanning routine.
-/

namespace ScriptLex

-- ---------------------------------------------------------------------------
-- Classes of characters
-- ---------------------------------------------------------------------------

def punctuation : List Char := ['+', '-', '*', '/', '\x7b', '\x7d', '(', ')', ',', ';', '.']

def inAlphabet (c : Char) : Bool :=
  c.isAlpha || c.isDigit || isBlank c || c == '=' || punctuation.contains c

def isForeign (c : Char) : Bool := !inAlphabet c && c != '\"'

def startsWithLetter (cs : List Char) : Bool := cs.head?.any Char.isAlpha

theorem mem_punctuation_of_ofPunctuation? (h : Fixed.ofPunctuation? c = some f) :
    c ∈ punctuation ∧ f.symbol.toList = [c] := by
  unfold Fixed.ofPunctuation? at h
  split at h
  all_goals cases h
  all_goals exact ⟨by decide, rfl⟩

theorem ofPunctuation?_eq_none_iff : Fixed.ofPunctuation? c = none ↔ c ∉ punctuation := by
  constructor
  · intro h hc
    have hall : punctuation.all (fun c => (Fixed.ofPunctuation? c).isSome) = true := by decide
    have hsome := List.all_eq_true.mp hall c hc
    simp [h] at hsome
  · intro h
    cases hf : Fixed.ofPunctuation? c with
    | none => rfl
    | some f => exact absurd (mem_punctuation_of_ofPunctuation? hf).1 h

/-- Letters, digits, blanks, `=`, quotes and punctuation have no character in common. -/
theorem class_of_punctuation (h : c ∈ punctuation) :
    c ≠ '=' ∧ c ≠ '\"' ∧ c.isDigit = false ∧ c.isAlpha = false ∧ isBlank c = false := by
  have hall : punctuation.all (fun c => decide (c ≠ '=' ∧ c ≠ '\"' ∧ c.isDigit = false ∧
      c.isAlpha = false ∧ isBlank c = false)) = true := by decide
  exact of_decide_eq_true (List.all_eq_true.mp hall c h)

theorem class_of_isBlank (h : isBlank c = true) :
    c ∉ punctuation ∧ c ≠ '=' ∧ c ≠ '\"' ∧ c.isDigit = false ∧ c.isAlpha = false := by
  simp only [isBlank, Bool.or_eq_true, beq_iff_eq] at h
  rcases h with (((rfl | rfl) | rfl) | rfl) | rfl <;> decide

theorem isDigit_eq_false_of_isAlpha {c : Char} (h : c.isAlpha = true) : c.isDigit = false := by
  have hletter : ('A'.val ≤ c.val ∧ c.val ≤ 'Z'.val) ∨ ('a'.val ≤ c.val ∧ c.val ≤ 'z'.val) := by
    rcases Bool.or_eq_true_iff.mp h with h | h
    · exact .inl (of_decide_eq_true h)
    · obtain ⟨hlow, hhigh⟩ := Bool.and_eq_true_iff.mp h
      exact .inr ⟨of_decide_eq_true hlow, of_decide_eq_true hhigh⟩
  refine eq_false_of_ne_true fun hd => ?_
  have hhigh : c.val ≤ '9'.val := of_decide_eq_true (Bool.and_eq_true_iff.mp hd).2
  simp only [UInt32.le_iff_toNat_le] at hletter hhigh
  change (65 ≤ c.toNat ∧ c.toNat ≤ 90) ∨ (97 ≤ c.toNat ∧ c.toNat ≤ 122) at hletter
  change c.toNat ≤ 57 at hhigh
  omega

theorem class_of_isDigit {c : Char} (h : c.isDigit = true) :
    c ∉ punctuation ∧ c ≠ '=' ∧ c ≠ '\"' := by
  refine ⟨fun hc => ?_, ?_, ?_⟩
  · simp [(class_of_punctuation hc).2.2.1] at h
  all_goals
    rintro rfl
    contradiction

theorem class_of_isAlpha {c : Char} (h : c.isAlpha = true) :
    c ∉ punctuation ∧ c ≠ '=' ∧ c ≠ '\"' ∧ c.isDigit = false := by
  refine ⟨fun hc => ?_, ?_, ?_, isDigit_eq_false_of_isAlpha h⟩
  · simp [(class_of_punctuation hc).2.2.2.1] at h
  all_goals
    rintro rfl
    contradiction

theorem class_of_isForeign (h : isForeign c = true) :
    c ∉ punctuation ∧ c ≠ '=' ∧ c ≠ '\"' ∧ c.isDigit = false ∧ c.isAlpha = false ∧
      isBlank c = false := by
  simpa [isForeign, inAlphabet, and_assoc, and_comm, and_left_comm] using h

-- ---------------------------------------------------------------------------
-- Pieces
-- ---------------------------------------------------------------------------

def Token.ofWord (word : String) : Token :=
  match Fixed.ofKeyword? word with
  | some keyword => .fixed keyword
  | none => .ident word

inductive Piece where
  | blanks (text : List Char)
  | symbol (f : Fixed)
  | equals
  | word (letters : List Char)
  | number (digits : List Char)
  | string (text : List Char)
  /-- A string without a closing quote. -/
  | openString (text : List Char)
  /-- A quote that opens no string. -/
  | looseQuote
  | foreign (ch : Char)

namespace Piece

def text : Piece → List Char
  | blanks text => text
  | symbol f => f.symbol.toList
  | equals => ['=']
  | word letters => letters
  | number digits => digits
  | string text => '\"' :: (text ++ ['\"'])
  | openString text => '\"' :: text
  | looseQuote => ['\"']
  | foreign ch => [ch]

/-- The piece can be cut off ahead of `rest`. Only the pieces that start with a quote depend on
the mode: a lenient string starts with a letter. -/
def Fits (strict : Bool) (rest : List Char) : Piece → Prop
  | blanks text => IsRun isBlank text rest
  | symbol f => ∃ c, Fixed.ofPunctuation? c = some f
  | equals => True
  | word letters => IsRun Char.isAlpha letters rest
  | number digits => IsRun Char.isDigit digits rest
  | string text => '\"' ∉ text ∧ (strict = false → startsWithLetter text = true)
  | openString text =>
    '\"' ∉ text ∧ rest = [] ∧ (strict = false → startsWithLetter text = true)
  | looseQuote => strict = false ∧ startsWithLetter rest = false
  | foreign ch => isForeign ch = true

/-- What a step answers. The character before the piece matters only to an `=`. -/
def answer (strict : Bool) (previous : Option Char) (span : Span) :
    Piece → Except LexError (Option Token)
  | blanks _ | looseQuote => .ok none
  | symbol f => .ok (some (.fixed f))
  | equals =>
    if strict = true ∧ previous = some '=' then .error (.unexpectedCharacter '=' span)
    else .ok (some (.fixed .equal))
  | word letters => .ok (some (.ofWord (String.ofList letters)))
  | number digits =>
    if strict = true ∧ UInt64.size ≤ Numeral.denoted digits then
      .error (.integerOverflow (String.ofList digits) span)
    else
      .ok (some (.number (UInt64.ofNat (Numeral.denoted digits))))
  | string text => .ok (some (.string (String.ofList text)))
  | openString text =>
    if strict then .error (.unterminatedString span)
    else .ok (some (.string (String.ofList text)))
  | foreign ch => if strict then .error (.unexpectedCharacter ch span) else .ok none

def lenientToken? : Piece → Option Token
  | blanks _ | looseQuote | foreign _ => none
  | symbol f => some (.fixed f)
  | equals => some (.fixed .equal)
  | word letters => some (.ofWord (String.ofList letters))
  | number digits => some (.number (UInt64.ofNat (Numeral.denoted digits)))
  | string text | openString text => some (.string (String.ofList text))

def remark? : Piece → Option (String × Code)
  | blanks _ | symbol _ | equals | word _ | string _ => none
  | number digits =>
    if UInt64.size ≤ Numeral.denoted digits then
      some ("integer literal `" ++ String.ofList digits ++ "` wrapped to " ++
        toString (UInt64.ofNat (Numeral.denoted digits)).toNat, .wrappedInteger)
    else
      none
  | openString _ => some ("string literal closed by end of input", .openString)
  | looseQuote => some ("skipped quote not followed by a letter", .droppedInput)
  | foreign ch => some ("skipped unexpected character " ++ Text.quotedChar ch, .droppedInput)

def warning? (strict : Bool) (span : Span) (p : Piece) : Option Diagnostic :=
  if strict then none
  else p.remark?.map fun remark => (Diagnostic.warning remark.1 span).withCode remark.2

theorem answer_lenient (p : Piece) (previous : Option Char) (span : Span) :
    p.answer false previous span = .ok p.lenientToken? := by
  cases p <;> simp [answer, lenientToken?]

theorem text_ne_nil (h : Fits strict rest p) : p.text ≠ [] := by
  cases p with
  | blanks | word | number => exact h.ne_nil
  | symbol f =>
    obtain ⟨c, hc⟩ := h
    simp [text, (mem_punctuation_of_ofPunctuation? hc).2]
  | equals | string | openString | looseQuote | foreign => simp [text]

theorem startsWithLetter_takeWhile (h : startsWithLetter cs = true) :
    startsWithLetter (cs.takeWhile isStringChar) = true := by
  cases cs with
  | nil => simp [startsWithLetter] at h
  | cons c cs =>
    have ha : c.isAlpha = true := h
    have hc : isStringChar c = true := bne_iff_ne.mpr (class_of_isAlpha ha).2.2.1
    simp [startsWithLetter, hc, ha]

theorem exists_fits_quote (strict : Bool) (cs : List Char) :
    ∃ (p : Piece) (rest : List Char), '\"' :: cs = p.text ++ rest ∧ p.Fits strict rest := by
  by_cases hloose : strict = false ∧ startsWithLetter cs = false
  · exact ⟨.looseQuote, cs, rfl, hloose⟩
  · have hsplit : cs.takeWhile isStringChar ++ cs.dropWhile isStringChar = cs :=
      List.takeWhile_append_dropWhile
    have hlong := isLongest_takeWhile isStringChar cs
    have hq : '\"' ∉ cs.takeWhile isStringChar := fun h => absurd (hlong.all _ h) (by decide)
    have hletter : strict = false → startsWithLetter (cs.takeWhile isStringChar) = true :=
      fun hs => startsWithLetter_takeWhile (by simpa [hs] using hloose)
    -- The text of the string ends the input, or a quote stands behind it.
    cases hd : cs.dropWhile isStringChar with
    | nil =>
      refine ⟨.openString (cs.takeWhile isStringChar), [], ?_, hq, rfl, hletter⟩
      rw [hd] at hsplit
      simp only [text, List.cons_append, hsplit]
    | cons q rest =>
      obtain rfl : q = '\"' := by
        have := hlong.stops q (by simp [hd])
        simpa [isStringChar] using this
      refine ⟨.string (cs.takeWhile isStringChar), rest, ?_, hq, hletter⟩
      rw [hd] at hsplit
      simp [text, hsplit]

theorem exists_fits (strict : Bool) (c : Char) (cs : List Char) :
    ∃ (p : Piece) (rest : List Char), c :: cs = p.text ++ rest ∧ p.Fits strict rest := by
  have hrun (q : Char → Bool) : (c :: cs).takeWhile q ++ (c :: cs).dropWhile q = c :: cs :=
    List.takeWhile_append_dropWhile
  cases hp : Fixed.ofPunctuation? c with
  | some f =>
    refine ⟨.symbol f, cs, ?_, c, hp⟩
    simp [text, (mem_punctuation_of_ofPunctuation? hp).2]
  | none =>
    have hp := ofPunctuation?_eq_none_iff.mp hp
    by_cases he : c = '='
    · exact ⟨.equals, cs, by simp [text, he], trivial⟩
    by_cases hq : c = '\"'
    · exact hq ▸ exists_fits_quote strict cs
    by_cases hd : c.isDigit = true
    · exact ⟨.number _, _, (hrun Char.isDigit).symm, isRun_takeWhile hd cs⟩
    by_cases ha : c.isAlpha = true
    · exact ⟨.word _, _, (hrun Char.isAlpha).symm, isRun_takeWhile ha cs⟩
    by_cases hb : isBlank c = true
    · exact ⟨.blanks _, _, (hrun isBlank).symm, isRun_takeWhile hb cs⟩
    · refine ⟨.foreign c, cs, rfl, ?_⟩
      simp_all [Fits, isForeign, inAlphabet]

end Piece
end ScriptLex
