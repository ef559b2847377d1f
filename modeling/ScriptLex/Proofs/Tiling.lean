import ScriptLex.Proofs.Calls

/-!
# A run tiles its source

`calls_tile`: the calls of a run pass the source from end to end in pieces that
are not empty, and the answer of every call is right about the text it passed.
`Answers` says what right means without reference to the scanner.
-/

namespace ScriptLex

-- ---------------------------------------------------------------------------
-- Spans over a source
-- ---------------------------------------------------------------------------

/-- The span covers `text`, which stands between `before` and `after`. Both of its ends are
therefore character boundaries. -/
structure Span.Covers (s : Span) (source before text after : List Char) : Prop where
  source_eq : source = before ++ text ++ after
  start_eq : s.start = Text.byteLength before
  stop_eq : s.stop = Text.byteLength before + Text.byteLength text

def Tiles (start stop : Nat) : List Span → Prop
  | [] => start = stop
  | s :: later => s.start = start ∧ s.start < s.stop ∧ Tiles s.stop stop later

theorem Span.Covers.slice?_eq {s : Span} (h : s.Covers source before text after) :
    Text.slice? s.start s.stop source = some text := by
  rw [h.source_eq, h.start_eq, h.stop_eq, List.append_assoc, Text.slice?_append]

theorem byteLength_toList (s : String) : Text.byteLength s.toList = s.utf8ByteSize := by
  have h (cs : List Char) : (String.ofList cs).utf8ByteSize = Text.byteLength cs := by
    induction cs with
    | nil => rfl
    | cons c cs ih =>
      rw [String.ofList_cons, String.utf8ByteSize_append, String.utf8ByteSize_singleton, ih]
      rfl
  rw [← h, String.ofList_toList]

theorem Cursor.StandsIn.covers {c : Cursor} (hs : c.StandsIn source) {rest : List Char}
    (hr : c.rest = text ++ rest) :
    (c.spanOf text).Covers source c.passed.reverse text rest := by
  constructor
  · rw [List.append_assoc, ← hr, hs.text_eq]
  · exact hs.offset_eq
  · rw [← hs.offset_eq]
    exact Mark.offset_past c.mark text

-- ---------------------------------------------------------------------------
-- Right answers
-- ---------------------------------------------------------------------------

/-- `answer` is right about `text`, the text of `span`, between `before` and `after`. -/
def Answers (strict : Bool) (span : Span) (before text after : List Char) :
    Except LexError (Option Token) → Prop
  | .ok none =>
    IsRun isBlank text after ∨
      strict = false ∧ ∃ c, text = [c] ∧
        (isForeign c = true ∨ c = '\"' ∧ startsWithLetter after = false)
  | .ok (some (.fixed f)) =>
    text = f.symbol.toList ∧
      (f.isKeyword = true ∧ IsRun Char.isAlpha text after ∨
        f.isKeyword = false ∧ ∃ c, text = [c] ∧
          (c ∈ punctuation ∨ c = '=' ∧ (strict = true → before.getLast? ≠ some '=')))
  | .ok (some (.ident word)) =>
    text = word.toList ∧ IsRun Char.isAlpha text after ∧ word ∉ ["let", "function", "return"]
  | .ok (some (.number n)) =>
    IsRun Char.isDigit text after ∧ n.toNat = Numeral.denoted text % UInt64.size ∧
      (strict = true → Numeral.denoted text < UInt64.size)
  | .ok (some (.string s)) =>
    '\"' ∉ s.toList ∧ (strict = false → startsWithLetter s.toList = true) ∧
      (text = '\"' :: (s.toList ++ ['\"']) ∨
        strict = false ∧ text = '\"' :: s.toList ∧ after = [])
  | .error .emptyInput => False
  | .error (.unexpectedCharacter ch place) =>
    strict = true ∧ place = span ∧ text = [ch] ∧
      (isForeign ch = true ∨ ch = '=' ∧ before.getLast? = some '=')
  | .error (.integerOverflow digits place) =>
    strict = true ∧ place = span ∧ text = digits.toList ∧ IsRun Char.isDigit text after ∧
      UInt64.size ≤ Numeral.denoted text
  | .error (.unterminatedString place) =>
    strict = true ∧ place = span ∧ after = [] ∧ ∃ s, '\"' ∉ s ∧ text = '\"' :: s

theorem isKeyword_of_ofKeyword? (h : Fixed.ofKeyword? word = some f) :
    f.isKeyword = true ∧ f.symbol = word := by
  have hall : ∀ k ∈ Fixed.keywords, k.isKeyword = true := by decide
  exact ⟨hall f (List.mem_of_find?_eq_some h), by simpa using List.find?_some h⟩

theorem not_mem_of_ofKeyword? (h : Fixed.ofKeyword? word = none) :
    word ∉ ["let", "function", "return"] := by
  have hne := List.find?_eq_none.mp h
  simp only [Fixed.keywords, List.mem_cons, List.not_mem_nil, or_false, beq_iff_eq,
    forall_eq_or_imp, forall_eq, Fixed.symbol] at hne
  simp only [List.mem_cons, List.not_mem_nil, or_false, not_or]
  exact ⟨Ne.symm hne.1, Ne.symm hne.2.1, Ne.symm hne.2.2⟩

theorem isKeyword_of_ofPunctuation? (h : Fixed.ofPunctuation? c = some f) :
    f.isKeyword = false := by
  unfold Fixed.ofPunctuation? at h
  split at h
  all_goals cases h
  all_goals rfl

theorem Piece.answers (hf : Piece.Fits strict rest p) (span : Span) (before : List Char) :
    Answers strict span before p.text rest (p.answer strict before.getLast? span) := by
  cases p with
  | blanks text => exact .inl hf
  | symbol f =>
    obtain ⟨c, hc⟩ := hf
    obtain ⟨hmem, htext⟩ := mem_punctuation_of_ofPunctuation? hc
    exact ⟨rfl, .inr ⟨isKeyword_of_ofPunctuation? hc, c, htext, .inl hmem⟩⟩
  | equals =>
    simp only [answer]
    split
    · next h => exact ⟨h.1, rfl, rfl, .inr ⟨rfl, h.2⟩⟩
    · next h => exact ⟨rfl, .inr ⟨rfl, '=', rfl, .inr ⟨rfl, fun hs he => h ⟨hs, he⟩⟩⟩⟩
  | word letters =>
    simp only [answer, Token.ofWord]
    split
    · next keyword hk =>
      obtain ⟨hkey, hsymbol⟩ := isKeyword_of_ofKeyword? hk
      exact ⟨by rw [hsymbol, String.toList_ofList]; rfl, .inl ⟨hkey, hf⟩⟩
    · next hk => exact ⟨by rw [String.toList_ofList]; rfl, hf, not_mem_of_ofKeyword? hk⟩
  | number digits =>
    simp only [answer]
    split
    · next h => exact ⟨h.1, rfl, by rw [String.toList_ofList]; rfl, hf, h.2⟩
    · next h => exact ⟨hf, UInt64.toNat_ofNat', fun hs => Nat.lt_of_not_le fun hn => h ⟨hs, hn⟩⟩
  | string text =>
    obtain ⟨hq, hletter⟩ := hf
    have htext : (String.ofList text).toList = text := String.toList_ofList
    exact ⟨by rwa [htext], by rwa [htext], .inl (by rw [htext]; rfl)⟩
  | openString text =>
    obtain ⟨hq, hend, hletter⟩ := hf
    cases strict with
    | true => exact ⟨rfl, rfl, hend, text, hq, rfl⟩
    | false =>
      have htext : (String.ofList text).toList = text := String.toList_ofList
      exact ⟨by rwa [htext], by rwa [htext], .inr ⟨rfl, by rw [htext]; rfl, hend⟩⟩
  | looseQuote => exact .inr ⟨hf.1, '\"', rfl, .inr ⟨rfl, hf.2⟩⟩
  | foreign ch =>
    cases strict with
    | true => exact ⟨rfl, rfl, rfl, .inl hf⟩
    | false => exact .inr ⟨rfl, ch, rfl, .inl hf⟩

-- ---------------------------------------------------------------------------
-- Runs
-- ---------------------------------------------------------------------------

namespace Lexer

theorem exists_covers_of_mem_calls {l : Lexer} (hs : l.cursor.StandsIn source)
    (hc : c ∈ l.calls) :
    ∃ (p : Piece) (rest : List Char),
      c.span.Covers source c.before.cursor.passed.reverse p.text rest ∧
        c.before.cursor.rest = p.text ++ rest ∧ p.Fits l.isStrict rest ∧
        c.before.isStrict = l.isStrict ∧ c = c.before.passingCall p := by
  obtain ⟨p, rest, hb, hstrict, hr, hf, hcall⟩ := exists_piece_of_mem_calls hs hc
  refine ⟨p, rest, ?_, hr, hf, hstrict, hcall⟩
  rw [hcall, span_passingCall]
  exact hb.covers hr

theorem answers_of_mem_calls {l : Lexer} (hs : l.cursor.StandsIn source) (hc : c ∈ l.calls) :
    ∃ text after, c.span.Covers source c.before.cursor.passed.reverse text after ∧
      c.before.cursor.rest = text ++ after ∧
      Answers l.isStrict c.span c.before.cursor.passed.reverse text after c.answer := by
  obtain ⟨p, rest, hcovers, hr, hf, hstrict, hcall⟩ := exists_covers_of_mem_calls hs hc
  have hspan : c.span = c.before.cursor.spanOf p.text := by
    rw [hcall]
    exact span_passingCall c.before p
  have hanswer : c.answer = (c.before.passing p).answer := by
    rw [hcall]
    rfl
  refine ⟨p.text, rest, hcovers, hr, ?_⟩
  have ha := Piece.answers hf c.span c.before.cursor.passed.reverse
  rw [List.getLast?_reverse] at ha
  rw [hanswer, passing, hstrict, ← hspan]
  exact ha

theorem tiles_calls (l : Lexer) (hs : l.cursor.StandsIn source) :
    Tiles l.cursor.mark.offset (Text.byteLength source) (l.calls.map Call.span) := by
  induction l, hs using run_induction with
  | atEnd l hs hr =>
    have htext := hs.text_eq
    rw [hr, List.append_nil] at htext
    rw [calls_of_end hr, hs.offset_eq, htext]
    rfl
  | piece l p rest hs _ hr hf ih =>
    rw [calls_eq_cons hs hr hf, List.map_cons, span_passingCall]
    have := byteLength_pos (Piece.text_ne_nil hf)
    refine ⟨rfl, ?_, by simpa using ih⟩
    rw [Cursor.start_spanOf, Cursor.stop_spanOf]
    omega

theorem length_calls_le (l : Lexer) (hs : l.cursor.StandsIn source) :
    l.calls.length ≤ l.cursor.rest.length := by
  induction l, hs using run_induction with
  | atEnd l hs hr => simp [calls_of_end hr]
  | piece l p rest hs _ hr hf ih =>
    have := List.length_pos_iff.mpr (Piece.text_ne_nil hf)
    rw [cursor_passing, Cursor.rest_pass hr] at ih
    rw [calls_eq_cons hs hr hf, hr, List.length_append, List.length_cons]
    omega

theorem atEnd_finish (l : Lexer) (hs : l.cursor.StandsIn source) : l.finish.atEnd = true := by
  induction l, hs using run_induction with
  | atEnd l hs hr => simp [finish_of_end hr, atEnd, Cursor.atEnd, hr]
  | piece l p rest hs _ hr hf ih => rwa [finish_eq hs hr hf]

/-- Scanning passes the whole source, in at most as many calls as it has characters, and every
call answers what the text that it passed says. -/
theorem calls_tile (source : String) (options : Options)
    (h : options.isStrict = true → source ≠ "") :
    ∃ l, start? source options = .ok l ∧
      Tiles 0 source.utf8ByteSize (l.calls.map Call.span) ∧
      l.calls.length ≤ source.length ∧ l.finish.atEnd = true ∧
      ∀ c ∈ l.calls, ∃ before text after, c.span.Covers source.toList before text after ∧
        Answers options.isStrict c.span before text after c.answer := by
  have hs := standsIn_start source options
  refine ⟨start source options, start?_eq h, ?_, ?_, atEnd_finish _ hs, fun c hc => ?_⟩
  · simpa [byteLength_toList] using tiles_calls _ hs
  · have hlen := length_calls_le _ hs
    rwa [rest_start, String.length_toList] at hlen
  · obtain ⟨text, after, hcovers, -, hanswers⟩ := answers_of_mem_calls hs hc
    exact ⟨c.before.cursor.passed.reverse, text, after, hcovers, hanswers⟩

theorem calls_tile_unusable_input :
    (Options.isStrict {} = true → "é== \"a\x00\" 7x\"" ≠ "") ∧
      ∃ l, start? "é== \"a\x00\" 7x\"" {} = .ok l ∧
        Tiles 0 13 (l.calls.map Call.span) ∧ l.calls.length ≤ 12 ∧ l.finish.atEnd = true ∧
        ∀ c ∈ l.calls, ∃ before text after,
          c.span.Covers "é== \"a\x00\" 7x\"".toList before text after ∧
            Answers true c.span before text after c.answer :=
  ⟨by decide, calls_tile "é== \"a\x00\" 7x\"" {} (by decide)⟩

end Lexer
end ScriptLex
