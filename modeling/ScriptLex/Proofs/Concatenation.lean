import ScriptLex.Proofs.Places
import ScriptLex.Proofs.Transcript

/-!
# Concatenated sources

A run over `a ++ b` is the run over `a` and then the run over `b`, moved, as
long as nothing in `a` is still open at its end and no lexeme reaches across.
The scanner looks across in two places only, and `Junction` names both: strict
mode looks back from an `=`, lenient mode looks ahead from a quote.
-/

namespace ScriptLex

-- ---------------------------------------------------------------------------
-- Moving what a run tells
-- ---------------------------------------------------------------------------

def Span.behind (front : List Char) (s : Span) : Span :=
  ⟨s.start + Text.byteLength front, s.stop + Text.byteLength front, s.line + front.count '\n',
    if s.line = 1 then s.column + (lastLine front).length else s.column⟩

def LexError.behind (front : List Char) : LexError → LexError
  | .emptyInput => .emptyInput
  | .unexpectedCharacter ch span => .unexpectedCharacter ch (span.behind front)
  | .unterminatedString span => .unterminatedString (span.behind front)
  | .integerOverflow digits span => .integerOverflow digits (span.behind front)

def Diagnostic.behind (front : List Char) (d : Diagnostic) : Diagnostic :=
  d.locatedAt (d.span.behind front)

namespace Transcript

def behind (front : List Char) (t : Transcript) : Transcript :=
  ⟨t.items.map (Except.mapError (LexError.behind front)), t.warnings.map (Diagnostic.behind front)⟩

@[simp] theorem behind_empty (front : List Char) : empty.behind front = empty := rfl

@[simp] theorem behind_append (front : List Char) (s t : Transcript) :
    (s ++ t).behind front = s.behind front ++ t.behind front := by
  change Transcript.mk _ _ = Transcript.mk _ _
  simp [behind]

def EndsOpen (t : Transcript) : Prop :=
  (∃ span, .error (.unterminatedString span) ∈ t.items) ∨
    ∃ d ∈ t.warnings, d.code = some .openString

theorem endsOpen_append {s t : Transcript} : (s ++ t).EndsOpen ↔ s.EndsOpen ∨ t.EndsOpen := by
  simp only [EndsOpen, items_append, warnings_append, List.mem_append, or_and_right, exists_or]
  exact or_or_or_comm

end Transcript

def Cursor.behind (front : List Char) (c : Cursor) : Cursor :=
  ⟨c.passed ++ front.reverse, c.rest, c.mark.behind front⟩

section
variable {front text : List Char} {c : Cursor} {p : Piece}

theorem Cursor.pass_behind (hm : 0 < c.mark.line) :
    (c.behind front).pass text = (c.pass text).behind front := by
  simp [pass, behind, Mark.past_behind front hm]

theorem Cursor.spanOf_behind (hm : 0 < c.mark.line) :
    (c.behind front).spanOf text = (c.spanOf text).behind front := by
  rw [spanOf, pass_behind hm]
  rfl

theorem Piece.item?_answer_behind (strict : Bool) (previous : Option Char) (span : Span) :
    item? (p.answer strict previous (span.behind front)) =
      (item? (p.answer strict previous span)).map (Except.mapError (LexError.behind front)) := by
  cases p with
  | blanks | symbol | word | string | looseQuote => rfl
  | equals | number =>
    simp only [answer]
    split <;> rfl
  | openString | foreign => cases strict <;> rfl

theorem Piece.warning?_behind (strict : Bool) (span : Span) :
    p.warning? strict (span.behind front) =
      (p.warning? strict span).map (Diagnostic.behind front) := by
  cases strict with
  | true => rfl
  | false =>
    cases h : p.remark? with
    | none => simp [warning?, h]
    | some remark =>
      simp [warning?, h]
      rfl

theorem Piece.answer_behind {rest : List Char} (span : Span) (hr : c.rest = p.text ++ rest)
    (hequal : c.passed = [] → strict = true → front.getLast? = some '=' →
      c.rest.head? ≠ some '=') :
    p.answer strict (c.behind front).passed.head? span = p.answer strict c.passed.head? span := by
  cases p with
  | equals =>
    rcases hpassed : c.passed with _ | ⟨ch, passed⟩
    · have hnot : ¬ (strict = true ∧ front.getLast? = some '=') := by
        rintro ⟨hs, hlast⟩
        exact hequal hpassed hs hlast (by simp [hr, text])
      simp [answer, Cursor.behind, hpassed, hnot]
    · simp [Cursor.behind, hpassed]
  | _ => rfl

theorem Piece.transcript_behind {rest : List Char} (hm : 0 < c.mark.line)
    (hr : c.rest = p.text ++ rest)
    (hequal : c.passed = [] → strict = true → front.getLast? = some '=' →
      c.rest.head? ≠ some '=') :
    p.transcript strict (c.behind front) = (p.transcript strict c).behind front := by
  simp only [transcript, Transcript.behind, Cursor.spanOf_behind hm, answer_behind _ hr hequal,
    item?_answer_behind, warning?_behind, Option.toList_map]

/-- More text in front moves everything that a run tells and changes nothing else. -/
theorem Reads.behind (front : List Char) (h : Reads strict c t) (hm : 0 < c.mark.line)
    (hequal : c.passed = [] → strict = true → front.getLast? = some '=' →
      c.rest.head? ≠ some '=') :
    Reads strict (c.behind front) (t.behind front) := by
  induction h with
  | done hr => exact .done hr
  | @blank c ch rest t hr hb _ ih =>
    refine .blank hr hb ?_
    rw [Cursor.pass_behind hm]
    exact ih (Mark.line_past_pos hm _) (by simp)
  | @piece c rest t p hr hf _ ih =>
    rw [Transcript.behind_append, ← Piece.transcript_behind hm hr hequal]
    refine .piece hr hf ?_
    rw [Cursor.pass_behind hm]
    exact ih (Mark.line_past_pos hm _) (by simp [Piece.text_ne_nil hf])

end

-- ---------------------------------------------------------------------------
-- Going on behind the end
-- ---------------------------------------------------------------------------

def Cursor.before (back : List Char) (c : Cursor) : Cursor := { c with rest := c.rest ++ back }

theorem Cursor.pass_before {text rest : List Char} {c : Cursor} (hr : c.rest = text ++ rest)
    (back : List Char) : (c.before back).pass text = (c.pass text).before back := by
  simp [pass, before, hr]

/-- No word and no number reaches from the end of `front` into `back`. -/
structure Seam (front back : List Char) : Prop where
  letters : ∀ c ∈ front.getLast?, ∀ d ∈ back.head?, ¬ (c.isAlpha = true ∧ d.isAlpha = true)
  digits : ∀ c ∈ front.getLast?, ∀ d ∈ back.head?, ¬ (c.isDigit = true ∧ d.isDigit = true)

def Call.DropsQuote (c : Call) : Prop := c.before.cursor.current = '\"' ∧ c.answer = .ok none

/-- `back` goes on with what the piece began. -/
def Piece.GoesOn (back : List Char) : Piece → Prop
  | word _ => ∃ c ∈ back.head?, c.isAlpha = true
  | number _ => ∃ c ∈ back.head?, c.isDigit = true
  | looseQuote => startsWithLetter back = true
  | openString _ => True
  | blanks _ | symbol _ | equals | string _ | foreign _ => False

/-- Apart from blanks, a piece notices more text behind the end only if that goes on with it. -/
theorem Piece.Fits.before (hf : Piece.Fits strict rest p) (hp : ∀ text, p ≠ .blanks text)
    (hback : rest = [] → ¬ p.GoesOn back) : p.Fits strict (rest ++ back) := by
  cases p with
  | blanks text => exact absurd rfl (hp text)
  | symbol | equals | string | foreign => exact hf
  | word letters =>
    refine ⟨⟨hf.all, fun c hc => ?_⟩, hf.ne_nil⟩
    cases rest with
    | nil => exact eq_false_of_ne_true fun ha => hback rfl ⟨c, hc, ha⟩
    | cons d rest => exact hf.stops c hc
  | number digits =>
    refine ⟨⟨hf.all, fun c hc => ?_⟩, hf.ne_nil⟩
    cases rest with
    | nil => exact eq_false_of_ne_true fun hd => hback rfl ⟨c, hc, hd⟩
    | cons d rest => exact hf.stops c hc
  | looseQuote =>
    cases rest with
    | nil => exact ⟨hf.1, eq_false_of_ne_true (hback rfl)⟩
    | cons d rest => exact hf
  | openString => exact absurd trivial (hback hf.2.1)

theorem Piece.transcript_blanks (strict : Bool) (c : Cursor) (text : List Char) :
    (Piece.blanks text).transcript strict c = .empty := by
  cases strict <;> rfl

namespace Lexer

variable {l : Lexer} {p : Piece} {source back : List Char}

theorem not_goesOn_of_end (hs : l.cursor.StandsIn source) (hr : l.cursor.rest = p.text)
    (hf : p.Fits l.isStrict []) (hseam : Seam source back)
    (hquote : l.isStrict = false → (l.passingCall p).DropsQuote → startsWithLetter back = false)
    (hopen : ¬ (p.transcript l.isStrict l.cursor).EndsOpen) : ¬ p.GoesOn back := by
  have hlast {c : Char} (hc : c ∈ p.text.getLast?) : c ∈ source.getLast? := by
    rw [← hs.text_eq, hr, List.getLast?_append, hc]
    rfl
  cases p with
  | blanks | symbol | equals | string | foreign => exact id
  | word letters =>
    rintro ⟨d, hd, ha⟩
    have hc := List.getLast?_eq_some_getLast hf.ne_nil
    exact hseam.letters _ (hlast hc) d hd ⟨hf.all _ (List.getLast_mem _), ha⟩
  | number digits =>
    rintro ⟨d, hd, hdigit⟩
    have hc := List.getLast?_eq_some_getLast hf.ne_nil
    exact hseam.digits _ (hlast hc) d hd ⟨hf.all _ (List.getLast_mem _), hdigit⟩
  | looseQuote =>
    intro hletter
    have hdrops : (l.passingCall .looseQuote).DropsQuote := by
      refine ⟨?_, rfl⟩
      simp [passingCall, Cursor.current, hr, Piece.text]
    simp [Piece.GoesOn, hquote hf.1 hdrops] at hletter
  | openString text =>
    intro _
    apply hopen
    cases hstrict : l.isStrict with
    | true => exact .inl ⟨_, List.mem_singleton_self _⟩
    | false => exact .inr ⟨_, List.mem_singleton_self _, rfl⟩

/-- A run goes on behind the end of its source with whatever is read there. -/
theorem reads_before (l : Lexer) (hs : l.cursor.StandsIn source) (hseam : Seam source back)
    (hquote : l.isStrict = false →
      ∀ c ∈ l.calls.getLast?, c.DropsQuote → startsWithLetter back = false)
    (hopen : ¬ l.transcript.EndsOpen)
    (later : Reads l.isStrict ((l.cursor.pass l.cursor.rest).before back) t) :
    Reads l.isStrict (l.cursor.before back) (l.transcript ++ t) := by
  induction l, hs using run_induction with
  | atEnd l hs hr =>
    rw [hr] at later
    rwa [transcript_of_end hr]
  | piece l p rest hs _ hr hf ih =>
    have hrest : (l.cursor.pass p.text).rest = rest := Cursor.rest_pass hr
    have hback : (l.cursor.before back).rest = p.text ++ (rest ++ back) := by
      simp [Cursor.before, hr]
    rw [transcript_eq hs hr hf] at hopen ⊢
    rw [Transcript.endsOpen_append, not_or] at hopen
    rw [calls_eq_cons hs hr hf, List.getLast?_cons] at hquote
    rw [Transcript.append_assoc]
    have hlater : Reads l.isStrict ((l.cursor.before back).pass p.text)
        ((l.passing p).lexer.transcript ++ t) := by
      rw [Cursor.pass_before hr]
      have ih := ih (fun hl c hc => hquote (by simpa using hl) c (by simp [Option.mem_def.mp hc]))
        hopen.2
      simp only [isStrict_passing, cursor_passing, hrest, ← Cursor.pass_append, ← hr] at ih
      exact ih later
    by_cases hp : ∃ text, p = .blanks text
    · -- The blanks may go on behind the end, and then they are one run with those.
      obtain ⟨text, rfl⟩ := hp
      rw [Piece.transcript_blanks]
      exact .blanks hback hf.all hlater
    · have hp : ∀ text, p ≠ .blanks text := fun text he => hp ⟨text, he⟩
      refine .piece hback (hf.before hp ?_) hlater
      rintro rfl
      have hend : (l.passing p).lexer.calls = [] := calls_of_end (by simpa using hrest)
      refine not_goesOn_of_end hs (by simpa using hr) hf hseam (fun hl => hquote hl _ ?_) hopen.1
      simp [hend]

end Lexer

-- ---------------------------------------------------------------------------
-- Whole sources
-- ---------------------------------------------------------------------------

/-- Nothing reaches across from `a` into `b`. -/
structure Junction (options : Options) (a b : String) : Prop where
  seam : Seam a.toList b.toList
  closed : ∀ s, transcript? a options = .ok s → ¬ s.EndsOpen
  /-- Strict mode would look back from the second `=` to the first. -/
  equals : options.isStrict = true →
    ¬ (a.toList.getLast? = some '=' ∧ b.toList.head? = some '=')
  /-- Lenient mode would look ahead from the quote to the letter. -/
  quote : options.isStrict = false → ∀ c ∈ (Lexer.start a options).calls.getLast?,
    c.DropsQuote → startsWithLetter b.toList = false

/-- Lexing `a ++ b` is lexing `a` and then `b`, with what is said about `b` moved behind `a`. -/
theorem transcript?_append {a b : String} (ha : a ≠ "") (hb : b ≠ "") (h : Junction options a b) :
    ∃ s t, transcript? a options = .ok s ∧ transcript? b options = .ok t ∧
      transcript? (a ++ b) options = .ok (s ++ t.behind a.toList) := by
  have hab : a ++ b ≠ "" := by simp [ha]
  have hsa := Lexer.standsIn_start a options
  have hopen := h.closed _ (transcript?_eq fun _ => ha)
  have hrestart : ((Cursor.start a).pass a.toList).before b.toList =
      (Cursor.start b).behind a.toList := by
    simp [Cursor.start, Cursor.pass, Cursor.before, Cursor.behind, Mark.past_origin_eq_behind]
  have hb' := (Lexer.reads_transcript _ (Lexer.standsIn_start b options)).behind a.toList
    Nat.one_pos fun _ hs hlast hhead => h.equals hs ⟨hlast, hhead⟩
  have hreads := Lexer.reads_before _ hsa h.seam h.quote hopen (hrestart ▸ hb')
  have hstart : (Lexer.start (a ++ b) options).cursor =
      (Lexer.start a options).cursor.before b.toList := by
    simp [Lexer.start, Cursor.start, Cursor.before]
  refine ⟨_, _, transcript?_eq fun _ => ha, transcript?_eq fun _ => hb, ?_⟩
  rw [transcript?_eq fun _ => hab,
    hreads.transcript_eq (Lexer.standsIn_start (a ++ b) options) hstart rfl]

theorem transcript?_append_second_line :
    Junction {} "é\"=\n\"=" "é\n#" ∧
      ∃ s t, transcript? "é\"=\n\"=" {} = .ok s ∧ transcript? "é\n#" {} = .ok t ∧
        transcript? "é\"=\n\"=é\n#" {} = .ok (s ++ t.behind "é\"=\n\"=".toList) := by
  have hsource : "é\"=\n\"=".toList = ['é', '\"', '=', '\n', '\"', '='] := by decide
  have hreads : Reads true (Cursor.start "é\"=\n\"=") _ :=
    .piece (p := .foreign 'é') hsource rfl (.piece (p := .string ['=', '\n'])
      (Cursor.rest_pass hsource) ⟨by decide, fun h => by contradiction⟩ (.piece (p := .equals)
        (Cursor.rest_pass (Cursor.rest_pass hsource)) trivial (.done rfl)))
  have hopen : ¬ (Lexer.start "é\"=\n\"=" {}).transcript.EndsOpen := by
    rw [hreads.transcript_eq (Lexer.standsIn_start _ _) rfl rfl]
    rintro (⟨span, h⟩ | ⟨d, h, -⟩)
    · simp [Piece.transcript, Piece.answer, item?, Transcript.empty, Cursor.start, Piece.text] at h
    · simp [Piece.transcript, Piece.warning?, Transcript.empty] at h
  have hseam : Seam "é\"=\n\"=".toList "é\n#".toList := by
    rw [hsource]
    constructor
    · simp
    · simp
  have hjunction : Junction {} "é\"=\n\"=" "é\n#" := by
    refine ⟨hseam, fun s hs => ?_, by decide, fun h => by contradiction⟩
    rw [transcript?_eq (by decide)] at hs
    cases hs
    exact hopen
  exact ⟨hjunction, transcript?_append (by decide) (by decide) hjunction⟩

end ScriptLex
