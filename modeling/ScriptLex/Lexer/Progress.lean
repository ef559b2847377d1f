import ScriptLex.Lexer.Scan

/-!
# Progress of scanning

Away from the end of input every scanning step passes at least one character,
so repeated scanning ends.
-/

namespace ScriptLex.Lexer

@[simp] theorem rest_advance (l : Lexer) : l.advance.cursor.rest = l.cursor.rest.tail := by
  simp [advance, onCursor]

@[simp] theorem rest_eatWhile (l : Lexer) (p : Char → Bool) :
    (l.eatWhile p).cursor.rest = l.cursor.rest.dropWhile p := by
  simp [eatWhile, onCursor, Cursor.rest_eatWhile]

@[simp] theorem cursor_warn (l : Lexer) (span : Span) (message : String) (code : Code) :
    (l.warn span message code).cursor = l.cursor := rfl

@[simp] theorem rest_skipBlanks (l : Lexer) :
    l.skipBlanks.cursor.rest = l.cursor.rest.dropWhile isBlank := by
  simp [skipBlanks]

@[simp] theorem rest_number (l : Lexer) :
    l.number.lexer.cursor.rest = l.cursor.rest.dropWhile Char.isDigit := by
  unfold number
  dsimp only
  split
  · split <;> simp
  · simp

@[simp] theorem rest_wordToken (l : Lexer) :
    l.wordToken.lexer.cursor.rest = l.cursor.rest.dropWhile Char.isAlpha := by
  unfold wordToken word
  dsimp only
  split <;> simp

@[simp] theorem rest_stringText (l : Lexer) :
    l.stringText.lexer.cursor.rest = l.cursor.rest.dropWhile isStringChar := by
  unfold stringText
  dsimp only
  split
  · split <;> simp
  · simp

@[simp] theorem rest_equals (l : Lexer) :
    l.equals.lexer.cursor.rest = l.cursor.rest.tail := by
  unfold equals
  split <;> simp

@[simp] theorem rest_unexpected (l : Lexer) (ch : Char) :
    (l.unexpected ch).lexer.cursor.rest = l.cursor.rest.tail := by
  unfold unexpected
  split <;> simp

theorem length_rest_string_le (l : Lexer) :
    l.string.lexer.cursor.rest.length ≤ l.cursor.rest.tail.length := by
  have hle := (List.dropWhile_sublist isStringChar (l := l.cursor.rest.tail)).length_le
  unfold string
  dsimp only
  split
  · simp
  · split
    · rw [rest_advance, rest_stringText, rest_advance]
      exact Nat.le_trans (List.tail_sublist _).length_le hle
    · rw [rest_stringText, rest_advance]
      exact hle

theorem length_dropWhile_cons_lt {p : Char → Bool} {ch : Char} {rest : List Char}
    (hp : p ch = true) : ((ch :: rest).dropWhile p).length < (ch :: rest).length := by
  have h := (List.dropWhile_sublist p (l := rest)).length_le
  simp [hp]
  omega

theorem length_rest_scanToken_lt {l : Lexer} {ch : Char} {rest : List Char}
    (h : l.cursor.rest = ch :: rest) :
    l.scanToken.lexer.cursor.rest.length < l.cursor.rest.length := by
  have hs := l.length_rest_string_le
  unfold scanToken
  split
  · next hn => simp [hn] at h
  · next c r hc =>
    split
    · simp [hc]
    · repeat' split
      · simp [Step.map, hc]
      · rw [hc] at hs ⊢
        simp only [List.tail_cons, List.length_cons] at hs ⊢
        omega
      · next hd => simpa [Step.map, hc] using length_dropWhile_cons_lt hd
      · next hd => simpa [Step.map, hc] using length_dropWhile_cons_lt hd
      · next hd => simpa [hc] using length_dropWhile_cons_lt hd
      · simp [hc]

end ScriptLex.Lexer
