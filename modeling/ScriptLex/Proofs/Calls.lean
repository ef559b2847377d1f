import ScriptLex.Lexer.Run
import ScriptLex.Proofs.Stepping

/-!
# Runs, call by call

A run scans up to the end of input and goes on after errors. Its calls are the
pieces of the source in order, so a property of runs is proved by
`run_induction`: at the end of input, and in front of a piece that fits.
-/

namespace ScriptLex

/-- One call of `scanToken`, between the lexer that it starts from and the one it leaves. -/
structure Call where
  before : Lexer
  answer : Except LexError (Option Token)
  after : Lexer

namespace Call

def span (c : Call) : Span := c.after.cursor.spanFrom c.before.cursor.mark

def token? (c : Call) : Option Token :=
  match c.answer with
  | .ok token? => token?
  | .error _ => none

def error? (c : Call) : Option LexError :=
  match c.answer with
  | .ok _ => none
  | .error e => some e

def warnings (c : Call) : List Diagnostic :=
  c.after.collector.diagnostics.drop c.before.collector.diagnostics.length

end Call

namespace Lexer

variable {l : Lexer} {rest : List Char} {source : List Char} {p : Piece}

/-- The calls up to the end of input, past errors. -/
def calls (l : Lexer) : List Call :=
  match _h : l.cursor.rest with
  | [] => []
  | _ :: _ => ⟨l, l.scanToken.answer, l.scanToken.lexer⟩ :: l.scanToken.lexer.calls
termination_by l.cursor.rest.length
decreasing_by exact length_rest_scanToken_lt _h

def passingCall (l : Lexer) (p : Piece) : Call := ⟨l, (l.passing p).answer, (l.passing p).lexer⟩

theorem calls_of_end (h : l.cursor.rest = []) : l.calls = [] := by
  rw [calls]
  split
  · rfl
  · simp_all

theorem calls_of_ne_nil (h : l.cursor.rest ≠ []) :
    l.calls = ⟨l, l.scanToken.answer, l.scanToken.lexer⟩ :: l.scanToken.lexer.calls := by
  rw [calls]
  split
  · contradiction
  · rfl

theorem rest_ne_nil (hr : l.cursor.rest = p.text ++ rest) (hf : p.Fits l.isStrict rest) :
    l.cursor.rest ≠ [] := by
  rw [hr]
  exact List.append_ne_nil_of_left_ne_nil (Piece.text_ne_nil hf) rest

theorem calls_eq_cons (hs : l.cursor.StandsIn source) (hr : l.cursor.rest = p.text ++ rest)
    (hf : p.Fits l.isStrict rest) :
    l.calls = l.passingCall p :: (l.passing p).lexer.calls := by
  rw [calls_of_ne_nil (rest_ne_nil hr hf), scanToken_eq hs.column_pos hr hf]
  rfl

@[simp] theorem cursor_passing (l : Lexer) (p : Piece) :
    (l.passing p).lexer.cursor = l.cursor.pass p.text := by
  simp [passing]

@[simp] theorem isStrict_passing (l : Lexer) (p : Piece) :
    (l.passing p).lexer.isStrict = l.isStrict := by
  simp [passing]

@[simp] theorem span_passingCall (l : Lexer) (p : Piece) :
    (l.passingCall p).span = l.cursor.spanOf p.text := by
  simp [Call.span, passingCall, Cursor.spanOf]

@[simp] theorem warnings_passingCall (l : Lexer) (p : Piece) :
    (l.passingCall p).warnings =
      (p.warning? l.isStrict (l.cursor.spanOf p.text)).toList := by
  simp [Call.warnings, passingCall, passing]

/-- A property of all runs over `source`, by the pieces of the source from the last to the
first. -/
@[elab_as_elim]
theorem run_induction {motive : (l : Lexer) → l.cursor.StandsIn source → Prop}
    (atEnd : ∀ l hs, l.cursor.rest = [] → motive l hs)
    (piece : ∀ l p rest hs hs', l.cursor.rest = p.text ++ rest → p.Fits l.isStrict rest →
      motive (l.passing p).lexer hs' → motive l hs)
    (l : Lexer) (hs : l.cursor.StandsIn source) : motive l hs := by
  by_cases hne : l.cursor.rest = []
  · exact atEnd l hs hne
  · obtain ⟨p, rest, hr, hf, -⟩ := exists_scanToken_eq hs.column_pos hne
    have hs' : (l.passing p).lexer.cursor.StandsIn source := by
      rw [cursor_passing]
      exact hs.pass hr
    exact piece l p rest hs hs' hr hf (run_induction atEnd piece _ hs')
termination_by l.cursor.rest.length
decreasing_by
  rw [cursor_passing, Cursor.rest_pass hr, hr, List.length_append]
  have := List.length_pos_iff.mpr (Piece.text_ne_nil hf)
  omega

/-- Every call of a run passes a piece that fits where it stands. -/
theorem exists_piece_of_mem_calls {l : Lexer} (hs : l.cursor.StandsIn source) (hc : c ∈ l.calls) :
    ∃ (p : Piece) (rest : List Char), c.before.cursor.StandsIn source ∧
      c.before.isStrict = l.isStrict ∧ c.before.cursor.rest = p.text ++ rest ∧
      p.Fits l.isStrict rest ∧ c = c.before.passingCall p := by
  induction l, hs using run_induction with
  | atEnd l hs hr => simp [calls_of_end hr] at hc
  | piece l p rest hs _ hr hf ih =>
    rw [calls_eq_cons hs hr hf, List.mem_cons] at hc
    rcases hc with rfl | hc
    · exact ⟨p, rest, hs, rfl, hr, hf, rfl⟩
    · simpa using ih hc

theorem error?_of_mem_calls {l : Lexer} (hs : l.cursor.StandsIn source) (hl : l.isStrict = false)
    (hc : c ∈ l.calls) : c.error? = none := by
  obtain ⟨p, rest, -, hstrict, -, -, hcall⟩ := exists_piece_of_mem_calls hs hc
  rw [hcall, Call.error?, passingCall, passing, hstrict, hl]
  simp [p.answer_lenient]

-- ---------------------------------------------------------------------------
-- Tokens of a run
-- ---------------------------------------------------------------------------

def finish (l : Lexer) : Lexer := (l.calls.getLast?.map Call.after).getD l

theorem finish_of_end (h : l.cursor.rest = []) : l.finish = l := by
  simp [finish, calls_of_end h]

theorem finish_eq (hs : l.cursor.StandsIn source) (hr : l.cursor.rest = p.text ++ rest)
    (hf : p.Fits l.isStrict rest) : l.finish = (l.passing p).lexer.finish := by
  rw [finish, calls_eq_cons hs hr hf, finish]
  cases h : (l.passing p).lexer.calls with
  | nil => rfl
  | cons c cs => rw [List.getLast?_cons_cons, List.getLast?_eq_some_getLast (by simp)]; rfl

theorem next_of_end (h : l.cursor.rest = []) : l.next = (none, l) := by
  rw [next]
  split
  · rfl
  · simp_all

theorem next_of_ne_nil (h : l.cursor.rest ≠ []) :
    l.next =
      match l.scanToken.answer with
      | .ok (some token) => (some (.ok token), l.scanToken.lexer)
      | .ok none => l.scanToken.lexer.next
      | .error e => (some (.error e), l.scanToken.lexer) := by
  rw [next]
  split
  · contradiction
  · rfl

theorem tokens?_of_next (l : Lexer) :
    l.tokens? =
      match l.next with
      | (none, last) => .ok ([], last)
      | (some (.error e), _) => .error e
      | (some (.ok token), after) =>
        after.tokens?.map fun later => (token :: later.1, later.2) := by
  rw [tokens?]
  obtain ⟨item?, after⟩ := l.next
  split
  · simp_all
  · simp_all
  · obtain rfl : item? = _ := ‹_›
    dsimp only
    cases after.tokens? <;> rfl

theorem tokens?_eq (hs : l.cursor.StandsIn source) (hr : l.cursor.rest = p.text ++ rest)
    (hf : p.Fits l.isStrict rest) :
    l.tokens? =
      match (l.passing p).answer with
      | .ok token? =>
        (l.passing p).lexer.tokens?.map fun later => (token?.toList ++ later.1, later.2)
      | .error e => .error e := by
  rw [tokens?_of_next, next_of_ne_nil (rest_ne_nil hr hf), scanToken_eq hs.column_pos hr hf]
  cases (l.passing p).answer with
  | error e => rfl
  | ok token? =>
    cases token? with
    | none =>
      -- The loop goes on, so the tokens are those behind the piece.
      dsimp only
      rw [← tokens?_of_next]
      cases (l.passing p).lexer.tokens? <;> rfl
    | some token => rfl

theorem tokens?_eq_calls (l : Lexer) (hs : l.cursor.StandsIn source) :
    l.tokens? =
      match l.calls.findSome? Call.error? with
      | some e => .error e
      | none => .ok (l.calls.filterMap Call.token?, l.finish) := by
  induction l, hs using run_induction with
  | atEnd l hs hr => simp [tokens?_of_next, next_of_end hr, calls_of_end hr, finish_of_end hr]
  | piece l p rest hs _ hr hf ih =>
    rw [tokens?_eq hs hr hf, calls_eq_cons hs hr hf, finish_eq hs hr hf, ih]
    cases ha : (l.passing p).answer with
    | error e =>
      have he : Call.error? (l.passingCall p) = some e := by simp [Call.error?, passingCall, ha]
      simp [he]
    | ok token? =>
      have he : Call.error? (l.passingCall p) = none := by simp [Call.error?, passingCall, ha]
      have ht : Call.token? (l.passingCall p) = token? := by simp [Call.token?, passingCall, ha]
      simp only [List.findSome?_cons, he]
      cases List.findSome? Call.error? (l.passing p).lexer.calls with
      | some e => rfl
      | none => cases token? <;> simp [Except.map, ht]

theorem diagnostics_finish (l : Lexer) (hs : l.cursor.StandsIn source) :
    l.finish.collector.diagnostics =
      l.collector.diagnostics ++ l.calls.flatMap Call.warnings := by
  induction l, hs using run_induction with
  | atEnd l hs hr => simp [calls_of_end hr, finish_of_end hr]
  | piece l p rest hs _ hr hf ih =>
    rw [calls_eq_cons hs hr hf, finish_eq hs hr hf, ih, List.flatMap_cons, warnings_passingCall]
    simp [passing]

-- ---------------------------------------------------------------------------
-- Whole sources
-- ---------------------------------------------------------------------------

def start (source : String) (options : Options) : Lexer := { cursor := .start source, options }

@[simp] theorem rest_start (source : String) (options : Options) :
    (start source options).cursor.rest = source.toList := rfl

@[simp] theorem offset_start (source : String) (options : Options) :
    (start source options).cursor.mark.offset = 0 := rfl

@[simp] theorem isStrict_start (source : String) (options : Options) :
    (start source options).isStrict = options.isStrict := rfl

theorem standsIn_start (source : String) (options : Options) :
    (start source options).cursor.StandsIn source.toList :=
  Cursor.standsIn_start source

theorem start?_eq {source : String} {options : Options}
    (h : options.isStrict = true → source ≠ "") :
    start? source options = .ok (start source options) := by
  unfold start?
  split
  · next hs =>
    rw [Bool.and_eq_true, String.isEmpty_iff] at hs
    exact absurd hs.2 (h hs.1)
  · rfl

@[simp] theorem diagnostics_start (source : String) (options : Options) :
    (start source options).collector.diagnostics = [] := rfl

end Lexer

theorem lexWith_eq_calls (h : options.isStrict = true → source ≠ "") :
    lexWith source options =
      match (Lexer.start source options).calls.findSome? Call.error? with
      | some e => .error e
      | none => .ok
        ⟨(Lexer.start source options).calls.filterMap Call.token? ++
            if options.emitEnd then [Token.endOfInput] else [],
          (Lexer.start source options).calls.flatMap Call.warnings⟩ := by
  have hs := Lexer.standsIn_start source options
  have hd := Lexer.diagnostics_finish _ hs
  rw [Lexer.diagnostics_start, List.nil_append] at hd
  rw [lexWith, Lexer.start?_eq h]
  simp only [bind, Except.bind, Lexer.tokens?_eq_calls _ hs]
  cases (Lexer.start source options).calls.findSome? Call.error? with
  | some e => rfl
  | none => simp [pure, Except.pure, hd]

theorem lex_eq_calls (h : source ≠ "") :
    lex source =
      match (Lexer.start source {}).calls.findSome? Call.error? with
      | some e => .error e
      | none => .ok ((Lexer.start source {}).calls.filterMap Call.token?) := by
  have hs := Lexer.standsIn_start source {}
  rw [lex, Lexer.start?_eq fun _ => h]
  simp only [bind, Except.bind, Lexer.tokens?_eq_calls _ hs]
  cases (Lexer.start source {}).calls.findSome? Call.error? with
  | some e => rfl
  | none => rfl

end ScriptLex
