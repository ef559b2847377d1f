import ScriptLex.Proofs.Piece

/-!
# Steps cut off pieces

`exists_fits` finds a piece ahead of every lexer that is not at the end, and
`scanToken_eq` turns any piece that fits into the exact step: the answer, the
cursor behind the piece, and the warning kept.
-/

namespace ScriptLex

def Cursor.spanOf (c : Cursor) (text : List Char) : Span := (c.pass text).spanFrom c.mark

@[simp] theorem Cursor.start_spanOf (c : Cursor) (text : List Char) :
    (c.spanOf text).start = c.mark.offset := rfl

@[simp] theorem Cursor.stop_spanOf (c : Cursor) (text : List Char) :
    (c.spanOf text).stop = c.mark.offset + Text.byteLength text :=
  Mark.offset_past c.mark text

theorem Cursor.currentSpan_eq {c : Cursor} {rest : List Char} (h : c.rest = ch :: rest) :
    c.currentSpan = c.spanOf [ch] := by
  simp [currentSpan, spanOf, spanFrom, h]

namespace Lexer

variable {l : Lexer} {ch : Char} {rest : List Char} {p : Piece}

def pass (text : List Char) (l : Lexer) : Lexer := l.onCursor (Cursor.pass text)

def keep (warning? : Option Diagnostic) (l : Lexer) : Lexer :=
  match warning? with
  | none => l
  | some d => { l with collector := l.collector.emit d }

@[simp] theorem cursor_pass (text : List Char) (l : Lexer) :
    (l.pass text).cursor = l.cursor.pass text := rfl

@[simp] theorem isStrict_pass (text : List Char) (l : Lexer) :
    (l.pass text).isStrict = l.isStrict := rfl

@[simp] theorem collector_pass (text : List Char) (l : Lexer) :
    (l.pass text).collector = l.collector := rfl

@[simp] theorem cursor_keep (w : Option Diagnostic) (l : Lexer) :
    (l.keep w).cursor = l.cursor := by
  cases w <;> rfl

@[simp] theorem isStrict_keep (w : Option Diagnostic) (l : Lexer) :
    (l.keep w).isStrict = l.isStrict := by
  cases w <;> rfl

@[simp] theorem diagnostics_keep (w : Option Diagnostic) (l : Lexer) :
    (l.keep w).collector.diagnostics = l.collector.diagnostics ++ w.toList := by
  cases w with
  | none => simp [keep]
  | some d => simp [keep]

@[simp] theorem keep_none (l : Lexer) : l.keep none = l := rfl

theorem warn_eq_keep (l : Lexer) (span : Span) (message : String) (code : Code) :
    l.warn span message code = l.keep (some ((Diagnostic.warning message span).withCode code)) :=
  rfl

theorem advance_eq_pass (h : l.cursor.rest = ch :: rest) : l.advance = l.pass [ch] := by
  simp [advance, pass, onCursor, Cursor.advance_eq_pass h]

theorem advance_of_end (h : l.cursor.rest = []) : l.advance = l := by
  rw [advance, onCursor, Cursor.advance_of_end h]

theorem eatWhile_eq_pass (q : Char → Bool) (l : Lexer) :
    l.eatWhile q = l.pass (l.cursor.rest.takeWhile q) := by
  simp [eatWhile, pass, onCursor, Cursor.eatWhile_eq_pass]

def passing (l : Lexer) (p : Piece) : Step (Option Token) :=
  let span := l.cursor.spanOf p.text
  ⟨p.answer l.isStrict l.cursor.passed.head? span,
    (l.pass p.text).keep (p.warning? l.isStrict span)⟩

-- ---------------------------------------------------------------------------
-- The scanning routines
-- ---------------------------------------------------------------------------

theorem number_eq (h : IsLongest Char.isDigit digits rest) (hr : l.cursor.rest = digits ++ rest) :
    l.number.map (some ∘ Token.number) = l.passing (.number digits) := by
  have htext : l.cursor.rest.takeWhile Char.isDigit = digits := by rw [hr, h.takeWhile_eq]
  simp only [number, htext, eatWhile_eq_pass, Numeral.overflowed_read, Numeral.value_read,
    decide_eq_true_eq, passing, Piece.answer, Piece.warning?, Piece.remark?, Piece.text]
  by_cases hbig : UInt64.size ≤ Numeral.denoted digits
  · cases hs : l.isStrict with
    | true => simp [hbig, Step.map, Except.map, Cursor.spanOf]
    | false => simp [hbig, Step.map, Except.map, warn_eq_keep, Cursor.spanOf]
  · simp [hbig, Step.map, Except.map]

theorem wordToken_eq (h : IsLongest Char.isAlpha letters rest)
    (hr : l.cursor.rest = letters ++ rest) :
    l.wordToken.map some = l.passing (.word letters) := by
  have htext : l.cursor.rest.takeWhile Char.isAlpha = letters := by rw [hr, h.takeWhile_eq]
  simp only [wordToken, word, htext, eatWhile_eq_pass, passing, Piece.answer, Piece.warning?,
    Piece.remark?, Piece.text, Token.ofWord]
  split <;> simp [Step.map, Except.map, *]

theorem skipBlanks_eq (h : IsLongest isBlank text rest) (hr : l.cursor.rest = text ++ rest) :
    (⟨.ok none, l.skipBlanks⟩ : Step (Option Token)) = l.passing (.blanks text) := by
  have htext : l.cursor.rest.takeWhile isBlank = text := by rw [hr, h.takeWhile_eq]
  simp [skipBlanks, eatWhile_eq_pass, htext, passing, Piece.answer, Piece.warning?, Piece.remark?,
    Piece.text]

theorem equals_eq (hr : l.cursor.rest = '=' :: rest) :
    l.equals.map some = l.passing .equals := by
  simp only [equals, Cursor.currentSpan_eq hr, advance_eq_pass hr, passing, Piece.answer,
    Piece.warning?, Piece.remark?, Piece.text, Bool.and_eq_true, beq_iff_eq]
  split <;> simp [Step.map, Except.map]

theorem unexpected_eq (hr : l.cursor.rest = ch :: rest) :
    l.unexpected ch = l.passing (.foreign ch) := by
  simp only [unexpected, Cursor.currentSpan_eq hr, advance_eq_pass hr, passing, Piece.answer,
    Piece.warning?, Piece.remark?, Piece.text]
  cases l.isStrict with
  | true => simp
  | false => simp [warn_eq_keep]

-- ---------------------------------------------------------------------------
-- Strings
-- ---------------------------------------------------------------------------

theorem isLongest_isStringChar (h : '\"' ∉ text) (hr : rest = [] ∨ rest.head? = some '\"') :
    IsLongest isStringChar text rest := by
  refine ⟨fun c hc => ?_, fun c hc => ?_⟩
  · exact bne_iff_ne.mpr fun he => h (he ▸ hc)
  · rcases hr with rfl | hr
    · simp at hc
    · obtain rfl : '\"' = c := Option.some.inj (hr.symm.trans hc)
      rfl

theorem isAlpha_current (c : Cursor) : c.current.isAlpha = startsWithLetter c.rest := by
  unfold Cursor.current startsWithLetter
  cases c.rest <;> rfl

/-- Stepping back over the quote undoes stepping over it, since the column is at least one. -/
theorem openingQuote_after (h : 0 < m.column) : openingQuote (m.after '\"') = m := by
  have hsize : Char.utf8Size '\"' = 1 := rfl
  have hne : '\"' ≠ '\n' := by decide
  obtain ⟨offset, line, column⟩ := m
  simp only [openingQuote, Mark.after, hne, ↓reduceIte, hsize, Mark.mk.injEq] at h ⊢
  exact ⟨rfl, trivial, Nat.max_eq_left h⟩

theorem stringText_closed (h : '\"' ∉ text) (hr : l.cursor.rest = text ++ '\"' :: rest) :
    l.stringText = ⟨.ok (String.ofList text), l.pass text⟩ := by
  have htext : l.cursor.rest.takeWhile isStringChar = text := by
    rw [hr, (isLongest_isStringChar h (.inr rfl)).takeWhile_eq]
  have hend : (l.pass text).atEnd = false := by
    simp [atEnd, Cursor.atEnd, Cursor.rest_pass hr]
  simp [stringText, htext, eatWhile_eq_pass, hend]

theorem stringText_open (h : '\"' ∉ text) (hr : l.cursor.rest = text) :
    l.stringText =
      let span := (l.cursor.pass text).spanFrom (openingQuote l.cursor.mark)
      if l.isStrict then
        ⟨.error (.unterminatedString span), l.pass text⟩
      else
        ⟨.ok (String.ofList text),
          (l.pass text).warn span "string literal closed by end of input" .openString⟩ := by
  have hr : l.cursor.rest = text ++ [] := by rw [hr, List.append_nil]
  have htext : l.cursor.rest.takeWhile isStringChar = text := by
    rw [hr, (isLongest_isStringChar h (.inl rfl)).takeWhile_eq]
  have hend : (l.pass text).atEnd = true := by
    simp [atEnd, Cursor.atEnd, Cursor.rest_pass hr]
  simp [stringText, htext, eatWhile_eq_pass, hend]

theorem string_closed (hr : l.cursor.rest = (Piece.string text).text ++ rest)
    (hf : (Piece.string text).Fits l.isStrict rest) : l.string = l.passing (.string text) := by
  obtain ⟨hq, hletter⟩ := hf
  have hr : l.cursor.rest = '\"' :: (text ++ '\"' :: rest) := by simpa [Piece.text] using hr
  have hin : (l.pass ['\"']).cursor.rest = text ++ '\"' :: rest := Cursor.rest_pass hr
  have hafter : ((l.pass ['\"']).pass text).cursor.rest = '\"' :: rest := Cursor.rest_pass hin
  have hopens : (!l.isStrict && !(l.pass ['\"']).cursor.current.isAlpha) = false := by
    rw [isAlpha_current, hin]
    cases hs : l.isStrict with
    | true => rfl
    | false =>
      cases text with
      | nil => simp [startsWithLetter] at hletter; simp_all
      | cons c cs => simpa [startsWithLetter] using hletter hs
  have hpass : ((l.pass ['\"']).pass text).pass ['\"'] = l.pass (Piece.string text).text := by
    simp [pass, onCursor, Piece.text, ← Cursor.pass_append]
  rw [string, advance_eq_pass hr]
  simp only [hopens, stringText_closed hq hin, advance_eq_pass hafter, hpass]
  simp [passing, Piece.answer, Piece.warning?, Piece.remark?]

theorem string_open (hcol : 0 < l.cursor.mark.column)
    (hr : l.cursor.rest = (Piece.openString text).text)
    (hf : (Piece.openString text).Fits l.isStrict []) :
    l.string = l.passing (.openString text) := by
  obtain ⟨hq, -, hletter⟩ := hf
  have hr : l.cursor.rest = '\"' :: text := hr
  have hin : (l.pass ['\"']).cursor.rest = text := Cursor.rest_pass hr
  have hopens : (!l.isStrict && !(l.pass ['\"']).cursor.current.isAlpha) = false := by
    rw [isAlpha_current, hin]
    cases hs : l.isStrict with
    | true => rfl
    | false => simpa using hletter hs
  have hpass : (l.pass ['\"']).pass text = l.pass (Piece.openString text).text := by
    simp [pass, onCursor, Piece.text, ← Cursor.pass_append]
  have hmark : openingQuote (l.pass ['\"']).cursor.mark = l.cursor.mark :=
    openingQuote_after hcol
  have hspan : ((l.pass ['\"']).cursor.pass text).spanFrom l.cursor.mark =
      l.cursor.spanOf (Piece.openString text).text := by
    rw [← cursor_pass, hpass]
    rfl
  have hend (w : Option Diagnostic) :
      ((l.pass (Piece.openString text).text).keep w).advance =
        (l.pass (Piece.openString text).text).keep w := by
    apply advance_of_end
    rw [cursor_keep, cursor_pass]
    exact Cursor.rest_pass (by rw [List.append_nil, hr, Piece.text])
  rw [string, advance_eq_pass hr]
  simp only [hopens, stringText_open hq hin, hmark, hspan, isStrict_pass, hpass]
  cases hs : l.isStrict with
  | true => simp [passing, Piece.answer, Piece.warning?, hs]
  | false => simp [passing, Piece.answer, Piece.warning?, Piece.remark?, hs, warn_eq_keep, hend]

theorem string_loose (hr : l.cursor.rest = '\"' :: rest)
    (hf : Piece.looseQuote.Fits l.isStrict rest) : l.string = l.passing .looseQuote := by
  obtain ⟨hs, hletter⟩ := hf
  have hin : (l.cursor.pass ['\"']).rest = rest := Cursor.rest_pass hr
  rw [string, advance_eq_pass hr]
  simp [isAlpha_current, hin, hletter, hs, passing, Piece.answer, Piece.warning?, Piece.remark?,
    Piece.text, warn_eq_keep, Cursor.currentSpan_eq hr]

-- ---------------------------------------------------------------------------
-- Dispatch
-- ---------------------------------------------------------------------------

/-- Any piece that fits is the one the step passes. -/
theorem scanToken_eq (hcol : 0 < l.cursor.mark.column) (hr : l.cursor.rest = p.text ++ rest)
    (hf : p.Fits l.isStrict rest) : l.scanToken = l.passing p := by
  cases p with
  | symbol f =>
    obtain ⟨c, hc⟩ := hf
    have htext : (Piece.symbol f).text = [c] := (mem_punctuation_of_ofPunctuation? hc).2
    have hr : l.cursor.rest = c :: rest := by rw [hr, htext]; rfl
    simp [scanToken, hr, hc, advance_eq_pass hr, passing, htext, Piece.answer, Piece.warning?,
      Piece.remark?]
  | equals =>
    have hr : l.cursor.rest = '=' :: rest := hr
    have hc : Fixed.ofPunctuation? '=' = none := rfl
    simp only [scanToken, hr, hc, ↓reduceIte]
    exact equals_eq hr
  | number digits =>
    obtain ⟨c, cs, rfl⟩ := List.exists_cons_of_ne_nil hf.ne_nil
    have hd : c.isDigit = true := hf.all c (by simp)
    obtain ⟨hp, he, hq⟩ := class_of_isDigit hd
    rw [← number_eq hf.toIsLongest hr]
    simp [scanToken, hr, Piece.text, ofPunctuation?_eq_none_iff.mpr hp, he, hq, hd]
  | word letters =>
    obtain ⟨c, cs, rfl⟩ := List.exists_cons_of_ne_nil hf.ne_nil
    have ha : c.isAlpha = true := hf.all c (by simp)
    obtain ⟨hp, he, hq, hd⟩ := class_of_isAlpha ha
    rw [← wordToken_eq hf.toIsLongest hr]
    simp [scanToken, hr, Piece.text, ofPunctuation?_eq_none_iff.mpr hp, he, hq, hd, ha]
  | blanks text =>
    obtain ⟨c, cs, rfl⟩ := List.exists_cons_of_ne_nil hf.ne_nil
    have hb : isBlank c = true := hf.all c (by simp)
    obtain ⟨hp, he, hq, hd, ha⟩ := class_of_isBlank hb
    rw [← skipBlanks_eq hf.toIsLongest hr]
    simp [scanToken, hr, Piece.text, ofPunctuation?_eq_none_iff.mpr hp, he, hq, hd, ha, hb]
  | foreign c =>
    obtain ⟨hp, he, hq, hd, ha, hb⟩ := class_of_isForeign hf
    have hr : l.cursor.rest = c :: rest := hr
    rw [← unexpected_eq hr]
    simp [scanToken, hr, ofPunctuation?_eq_none_iff.mpr hp, he, hq, hd, ha, hb]
  | string text =>
    have hs : l.scanToken = l.string := by
      simp only [scanToken, hr, Piece.text]
      rfl
    rw [hs, string_closed hr hf]
  | openString text =>
    obtain rfl : rest = [] := hf.2.1
    have hr : l.cursor.rest = (Piece.openString text).text := by rw [hr, List.append_nil]
    have hs : l.scanToken = l.string := by
      simp only [scanToken, hr, Piece.text]
      rfl
    rw [hs, string_open hcol hr hf]
  | looseQuote =>
    have hr : l.cursor.rest = '\"' :: rest := hr
    have hs : l.scanToken = l.string := by
      simp only [scanToken, hr]
      rfl
    rw [hs, string_loose hr hf]

theorem exists_scanToken_eq (hcol : 0 < l.cursor.mark.column) (hne : l.cursor.rest ≠ []) :
    ∃ (p : Piece) (rest : List Char), l.cursor.rest = p.text ++ rest ∧ p.Fits l.isStrict rest ∧
      l.scanToken = l.passing p := by
  obtain ⟨c, cs, hcs⟩ := List.exists_cons_of_ne_nil hne
  obtain ⟨p, rest, hr, hf⟩ := Piece.exists_fits l.isStrict c cs
  exact ⟨p, rest, hcs.trans hr, hf, scanToken_eq hcol (hcs.trans hr) hf⟩

end Lexer
end ScriptLex
