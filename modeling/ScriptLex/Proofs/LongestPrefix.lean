import ScriptLex.Proofs.Machine.Walk
import ScriptLex.Proofs.Numbers

/-!
# Longest prefixes

Passing characters as long as they satisfy a predicate ends, and passes the
longest piece ahead that satisfies it, whatever the predicate says about NUL
and wherever the text holds one. `eatWhile_passes_longest` says so for every
place that a cursor can reach, and for the routines of the lexer that pass
blanks, words and the text of strings.
-/

namespace ScriptLex

/-- On the way from `c` to `after`, character by character, `text` is passed, and it is the longest
piece ahead of `c` whose characters all satisfy `p`. -/
structure Cursor.PassesLongest (p : Char → Bool) (text : List Char) (c after : Cursor) : Prop
    extends IsLongest p text after.rest where
  rest_eq : c.rest = text ++ after.rest
  longest : ∀ piece, piece <+: c.rest → (∀ ch ∈ piece, p ch = true) → piece <+: text
  steps : after = Cursor.advance^[text.length] c
  consumed_eq : after.consumed = c.consumed ++ String.ofList text
  sliceFrom?_eq : after.sliceFrom? c.mark.offset = some (String.ofList text)

namespace Cursor

variable {c : Cursor} {source text rest : List Char}

theorem iterate_advance (h : c.rest = text ++ rest) :
    advance^[text.length] c = c.pass text := by
  induction text generalizing c with
  | nil => rfl
  | cons ch text ih =>
    rw [List.length_cons, Function.iterate_succ_apply, advance_eq_pass h, ih (rest_pass h)]
    exact (pass_append [ch] text c).symm

theorem passed_eatWhile (p : Char → Bool) (c : Cursor) :
    (c.eatWhile p).passed.reverse = c.passed.reverse ++ c.rest.takeWhile p := by
  rw [eatWhile_eq_pass, passed_pass, List.reverse_append, List.reverse_reverse]

theorem PassesLongest.text_eq {p : Char → Bool} {after : Cursor}
    (h : c.PassesLongest p text after) : text = c.rest.takeWhile p := by
  rw [h.rest_eq, h.takeWhile_eq]

theorem StandsIn.passesLongest (hs : c.StandsIn source) (p : Char → Bool) :
    c.PassesLongest p (c.rest.takeWhile p) (c.eatWhile p) := by
  have hrest : c.rest = c.rest.takeWhile p ++ (c.eatWhile p).rest := by
    rw [rest_eatWhile, List.takeWhile_append_dropWhile]
  have hlongest : IsLongest p (c.rest.takeWhile p) (c.eatWhile p).rest := by
    rw [rest_eatWhile]
    exact isLongest_takeWhile p c.rest
  refine ⟨hlongest, hrest, fun piece hpiece hall => ?_, ?_, ?_, ?_⟩
  · exact hlongest.isPrefix (hrest ▸ hpiece) hall
  · rw [iterate_advance hrest, eatWhile_eq_pass]
  · rw [consumed, passed_eatWhile, String.ofList_append, consumed]
  · exact hs.sliceFrom?_eq (standsIn_eatWhile hs p) (passed_eatWhile p c)

end Cursor

-- ---------------------------------------------------------------------------
-- Machines
-- ---------------------------------------------------------------------------

/-- From between `before` and `text`, passing characters that satisfy `p` brings a machine's cursor
between `text` and `after`, unless the source is too long for its counters and one overflows. -/
def Machine.Cursor.Eats (source : String) (p : Char → Bool) (before text after : List Char)
    (k : Cursor) : Prop :=
  (∃ behind, k.eatWhile p = .ok behind ∧ behind.Between source (before ++ text) after ∧
    behind.sliceFrom k.position = .ok text) ∨
  k.eatWhile p = .error .overflow ∧ counterLimit ≤ source.length + 1

theorem Cursor.StandsIn.eats {source : String} {c : Cursor}
    (hs : c.StandsIn source.toList) (p : Char → Bool) :
    (c.image source.toList).Eats source p c.passed.reverse (c.rest.takeWhile p)
      (c.eatWhile p).rest := by
  rcases eatWhile_meets hs p with hok | ⟨hover, hsize⟩
  · refine .inl ⟨_, hok, ?_, ?_⟩
    · rw [← passed_eatWhile]
      exact (standsIn_eatWhile hs p).between
    · rw [eatWhile_eq_pass]
      exact sliceFrom_image hs List.takeWhile_append_dropWhile.symm
  · exact .inr ⟨hover, by rwa [String.length_toList] at hsize⟩

-- ---------------------------------------------------------------------------
-- Lexers
-- ---------------------------------------------------------------------------

/-- A string is cut off only at the end of the input, and only strict mode refuses it. -/
theorem Lexer.answer_stringText (l : Lexer) :
    l.stringText.answer = .ok (String.ofList (l.cursor.rest.takeWhile isStringChar)) ∨
      l.isStrict = true ∧ l.stringText.lexer.cursor.rest = [] ∧
        ∃ span, l.stringText.answer = .error (.unterminatedString span) := by
  rw [cursor_stringText]
  unfold stringText
  dsimp only
  split
  · next hend =>
    split
    · next hstrict => exact .inr ⟨hstrict, List.isEmpty_iff.mp hend, _, rfl⟩
    · exact .inl rfl
  · exact .inl rfl

/-- Wherever moves bring a cursor, passing the characters that satisfy a predicate ends behind the
longest such piece ahead. So it does on machine words, unless a counter overflows in a source of
`2 ^ 32 - 1` characters or more. Blanks, words and texts of strings are passed and given back so
wherever operations bring a lexer. -/
theorem eatWhile_passes_longest (source : String) :
    (∀ (moves : List Move) (p : Char → Bool),
      let c := (Cursor.walk source moves).here
      ∃ text, c.PassesLongest p text (c.eatWhile p) ∧
        ∀ w, Machine.walk source moves = .ok w →
          w.here.Between source c.passed.reverse c.rest ∧
            w.here.Eats source p c.passed.reverse text (c.eatWhile p).rest) ∧
      ∀ (options : Options) (start : Lexer), Lexer.start? source options = .ok start →
        ∀ ops : List Operation, let l := (start.performAll ops).2
          (∃ text, l.cursor.PassesLongest isBlank text l.skipBlanks.cursor) ∧
          (∃ text, l.cursor.PassesLongest Char.isAlpha text l.word.2.cursor ∧
            l.word.1 = String.ofList text) ∧
          ∃ text, l.cursor.PassesLongest isStringChar text l.stringText.lexer.cursor ∧
            (l.stringText.answer = .ok (String.ofList text) ∨
              l.isStrict = true ∧ l.stringText.lexer.cursor.rest = [] ∧
                ∃ span, l.stringText.answer = .error (.unterminatedString span)) := by
  constructor
  · intro moves p c
    have hs : c.StandsIn source.toList := (Cursor.all_walk source moves).1
    refine ⟨_, hs.passesLongest p, fun w hw => ?_⟩
    obtain rfl := (Cursor.walk_meets source moves).eq_of_ok hw
    exact ⟨hs.between, hs.eats p⟩
  · intro options start hstart ops l
    obtain ⟨rfl, -⟩ := Lexer.eq_start_of_start? hstart
    have hs : l.cursor.StandsIn source.toList :=
      Lexer.standsIn_performAll (Lexer.standsIn_start source options) ops
    refine ⟨⟨_, hs.passesLongest isBlank⟩, ⟨_, hs.passesLongest Char.isAlpha, rfl⟩, _, ?_,
      l.answer_stringText⟩
    rw [Lexer.cursor_stringText]
    exact hs.passesLongest isStringChar

theorem eatWhile_passes_longest_through_nul :
    let source := "é\x00\x00\"\x00"
    let moves : List Move := [.go .advance]
    let c := (Cursor.walk source moves).here
    c.PassesLongest (fun _ => true) ['\x00', '\x00', '\"', '\x00'] (c.eatWhile fun _ => true) ∧
      (∃ w k, Machine.walk source moves = .ok w ∧ w.here.eatWhile (· == '\x00') = .ok k ∧
        k.position = 4 ∧ k.ch = '\"' ∧ k.sliceFrom w.here.position = .ok ['\x00', '\x00']) ∧
      ∃ start, Lexer.start? source {} = .ok start ∧
        (start.performAll [.advance]).2.stringText.answer = .ok "\x00\x00" := by
  intro source moves c
  have hwalk : (Cursor.walk source moves).here =
      ⟨['é'], ['\x00', '\x00', '\"', '\x00'], ⟨2, 1, 2⟩⟩ := by cbv
  have hrest : c.rest = ['\x00', '\x00', '\"', '\x00'] := congrArg Cursor.rest hwalk
  have hpassed : c.passed.reverse = ['é'] := congrArg (List.reverse ∘ Cursor.passed) hwalk
  have hstart : Lexer.start? source {} = .ok (Lexer.start source {}) := rfl
  obtain ⟨hcursor, hlexer⟩ := eatWhile_passes_longest source
  refine ⟨?_, ?_, _, hstart, ?_⟩
  · obtain ⟨text, hpasses, -⟩ := hcursor moves fun _ => true
    obtain rfl : text = ['\x00', '\x00', '\"', '\x00'] := by
      rw [hpasses.text_eq, hrest]
      rfl
    exact hpasses
  · obtain ⟨text, hpasses, hmachine⟩ := hcursor moves (· == '\x00')
    obtain rfl : text = ['\x00', '\x00'] := by
      rw [hpasses.text_eq, hrest]
      rfl
    have hahead : (c.eatWhile (· == '\x00')).rest = ['\"', '\x00'] :=
      List.append_cancel_left (hpasses.rest_eq.symm.trans hrest)
    have hruns : Machine.walk source moves = _ := Cursor.walk_image (by decide) moves
    obtain ⟨-, ⟨k, heat, hbetween, hslice⟩ | ⟨-, hsize⟩⟩ := hmachine _ hruns
    · rw [hahead, hpassed] at hbetween
      have hposition : k.position = 4 := hbetween.position_eq
      have hch := hbetween.ch_of_lt (by rw [hposition]; decide)
      exact ⟨_, k, hruns, heat, hposition, (Option.some.inj hch).symm, hslice⟩
    · exact absurd hsize (by decide)
  · obtain ⟨-, -, text, hpasses, hanswer⟩ := hlexer {} _ hstart [.advance]
    obtain rfl : text = ['\x00', '\x00'] := by
      rw [hpasses.text_eq]
      decide +kernel
    rcases hanswer with hanswer | ⟨-, hend, -⟩
    · exact hanswer
    · have hquote : ((Lexer.start source {}).performAll [.advance]).2.stringText.lexer.cursor.rest =
          ['\"', '\x00'] := by
        decide +kernel
      rw [hquote] at hend
      contradiction

end ScriptLex
