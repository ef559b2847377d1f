import ScriptLex.Lexer.Session
import ScriptLex.Proofs.Places
import ScriptLex.Proofs.Tiling
import ScriptLex.Proofs.Transcript

/-!
# Locations of errors and warnings

Whatever is said about a source is said with a span, and the span is right: it
covers the text in question, and its line and column are those of the first
character of that text. `Sound` is what every scanning operation keeps.
-/

namespace ScriptLex

variable {source : String} {before text after rest : List Char}

-- ---------------------------------------------------------------------------
-- Right spans
-- ---------------------------------------------------------------------------

/-- The span covers `text`, which is not empty, and names the place where it starts. -/
structure Span.Locates (s : Span) (source : String) (before text after : List Char) : Prop
    extends s.Covers source.toList before text after where
  start_lt : s.start < s.stop
  stop_le : s.stop ≤ source.utf8ByteSize
  slice?_eq : s.slice? source = some (String.ofList text)
  line_eq : s.line = before.count '\n' + 1
  column_eq : s.column = (lastLine before).length + 1

/-- What the error is about is `text`, with `after` behind it. -/
def LexError.IsAbout (after text : List Char) : LexError → Prop
  | .emptyInput => False
  | .unexpectedCharacter ch _ => text = [ch] ∧ (isForeign ch = true ∨ ch = '=')
  | .unterminatedString _ => after = [] ∧ ∃ s, text = '\"' :: s ∧ '\"' ∉ s
  | .integerOverflow digits _ => text = digits.toList ∧ ∀ c ∈ text, c.isDigit = true

inductive Diagnostic.IsAbout (after : List Char) : List Char → Diagnostic → Prop where
  | foreign {place : Span} (hch : isForeign ch = true) :
      IsAbout after [ch] ((Diagnostic.warning
        ("skipped unexpected character " ++ Text.quotedChar ch) place).withCode .droppedInput)
  | quote {place : Span} :
      IsAbout after ['\"'] ((Diagnostic.warning
        "skipped quote not followed by a letter" place).withCode .droppedInput)
  | wrapped {place : Span} (n : UInt64) (hdigits : ∀ c ∈ digits, c.isDigit = true) :
      IsAbout after digits ((Diagnostic.warning ("integer literal `" ++ String.ofList digits ++
        "` wrapped to " ++ toString n.toNat) place).withCode .wrappedInteger)
  | openString {place : Span} (hs : '\"' ∉ s) (hafter : after = []) :
      IsAbout after ('\"' :: s) ((Diagnostic.warning
        "string literal closed by end of input" place).withCode .openString)

def LexError.Located (source : String) (e : LexError) : Prop :=
  ∃ span before text after, e.span? = some span ∧ span.Locates source before text after ∧
    e.IsAbout after text

def Diagnostic.Located (source : String) (d : Diagnostic) : Prop :=
  ∃ before text after, d.span.Locates source before text after ∧ d.IsAbout after text

theorem Cursor.StandsIn.locates {c : Cursor} (hs : c.StandsIn source.toList)
    (hr : c.rest = text ++ rest) (hne : text ≠ []) :
    (c.spanOf text).Locates source c.passed.reverse text rest := by
  have hcovers := hs.covers hr
  have hpos := byteLength_pos hne
  have hmark := hs.mark_eq.trans (Mark.past_origin _)
  refine ⟨hcovers, ?_, ?_, ?_, ?_, ?_⟩
  · rw [start_spanOf, stop_spanOf]
    omega
  · rw [hcovers.stop_eq, ← byteLength_toList, hcovers.source_eq]
    simp
  · rw [Span.slice?, hcovers.slice?_eq]
    rfl
  · exact congrArg Mark.line hmark
  · exact congrArg Mark.column hmark

-- ---------------------------------------------------------------------------
-- Pieces
-- ---------------------------------------------------------------------------

namespace Piece

variable {p : Piece} {span : Span}

theorem isAbout_of_error (hf : p.Fits strict rest)
    (he : p.answer strict previous span = .error e) :
    e.span? = some span ∧ e.IsAbout rest p.text := by
  cases p with
  | blanks | symbol | word | string | looseQuote => simp [answer] at he
  | equals =>
    simp only [answer] at he
    split at he
    · cases he
      exact ⟨rfl, rfl, .inr rfl⟩
    · contradiction
  | number digits =>
    simp only [answer] at he
    split at he
    · cases he
      exact ⟨rfl, String.toList_ofList.symm, hf.all⟩
    · contradiction
  | openString s =>
    cases strict with
    | true =>
      cases he
      exact ⟨rfl, hf.2.1, s, rfl, hf.1⟩
    | false => contradiction
  | foreign ch =>
    cases strict with
    | true =>
      cases he
      exact ⟨rfl, rfl, .inl hf⟩
    | false => contradiction

theorem isAbout_of_warning (hf : p.Fits strict rest) (hw : p.warning? strict span = some d) :
    d.span = span ∧ d.IsAbout rest p.text := by
  cases strict with
  | true => contradiction
  | false =>
    obtain ⟨remark, hremark, rfl⟩ := Option.map_eq_some_iff.mp hw
    refine ⟨rfl, ?_⟩
    cases p with
    | blanks | symbol | equals | word | string => contradiction
    | number digits =>
      simp only [remark?, Option.ite_none_right_eq_some, Option.some.injEq] at hremark
      obtain ⟨-, rfl⟩ := hremark
      exact .wrapped _ hf.all
    | openString s =>
      cases hremark
      exact .openString hf.1 hf.2.1
    | looseQuote =>
      cases hremark
      exact .quote
    | foreign ch =>
      cases hremark
      exact .foreign hf

end Piece

-- ---------------------------------------------------------------------------
-- Steps
-- ---------------------------------------------------------------------------

/-- The error says where it is, and a string that the end cut off leaves nothing to scan. -/
structure Lexer.Reports (source : String) (l : Lexer) (e : LexError) : Prop where
  located : e.Located source
  atEnd : ∀ span, e = .unterminatedString span → l.cursor.rest = []

structure Lexer.Sound (source : String) (l : Lexer) : Prop where
  stands : l.cursor.StandsIn source.toList
  kept : ∀ d ∈ l.collector.diagnostics, d.Located source

def Transcript.Located (source : String) (t : Transcript) : Prop :=
  (∀ e, .error e ∈ t.items → e.Located source) ∧ ∀ d ∈ t.warnings, d.Located source

theorem Lexer.eq_start_of_start? {options : Options} (hl : Lexer.start? source options = .ok l) :
    l = Lexer.start source options ∧ (options.isStrict = true → source ≠ "") := by
  unfold Lexer.start? at hl
  split at hl
  · contradiction
  · next hs =>
    rw [Bool.and_eq_true, String.isEmpty_iff, not_and] at hs
    exact ⟨(Except.ok.inj hl).symm, hs⟩

theorem Piece.located_transcript {p : Piece} {c : Cursor} (hs : c.StandsIn source.toList)
    (hr : c.rest = p.text ++ rest) (hf : p.Fits strict rest) :
    (p.transcript strict c).Located source := by
  have hlocates := hs.locates hr (text_ne_nil hf)
  constructor
  · intro e he
    cases ha : p.answer strict c.passed.head? (c.spanOf p.text) with
    | ok token? => cases token? <;> simp [transcript, ha, item?] at he
    | error e' =>
      obtain rfl : e = e' := by simpa [transcript, ha, item?] using he
      obtain ⟨hspan, habout⟩ := isAbout_of_error hf ha
      exact ⟨_, _, _, _, hspan, hlocates, habout⟩
  · intro d hd
    obtain ⟨hspan, habout⟩ := isAbout_of_warning hf (Option.mem_toList.mp hd)
    exact ⟨_, _, _, hspan ▸ hlocates, habout⟩

theorem Transcript.Located.append {s t : Transcript} (hs : s.Located source)
    (ht : t.Located source) : (s ++ t).Located source := by
  constructor
  · intro e he
    rcases List.mem_append.mp he with he | he
    · exact hs.1 e he
    · exact ht.1 e he
  · intro d hd
    rcases List.mem_append.mp hd with hd | hd
    · exact hs.2 d hd
    · exact ht.2 d hd

theorem Reads.located {c : Cursor} (h : Reads strict c t) (hs : c.StandsIn source.toList) :
    t.Located source := by
  induction h with
  | done hr =>
    constructor
    · intro e he
      exact (List.not_mem_nil he).elim
    · intro d hd
      exact (List.not_mem_nil hd).elim
  | blank hr hb _ ih => exact ih (hs.pass hr)
  | piece hr hf _ ih => exact (Piece.located_transcript hs hr hf).append (ih (hs.pass hr))

theorem located_of_transcript? {options : Options} (ht : transcript? source options = .ok t) :
    t.Located source := by
  cases hl : Lexer.start? source options with
  | error e => simp [transcript?, hl, bind, Except.bind] at ht
  | ok l =>
    obtain ⟨rfl, hne⟩ := Lexer.eq_start_of_start? hl
    rw [transcript?_eq hne] at ht
    cases ht
    have hs := Lexer.standsIn_start source options
    exact (Lexer.reads_transcript _ hs).located hs

namespace Lexer.Sound

variable {l : Lexer}

theorem start (source : String) (options : Options) : (Lexer.start source options).Sound source :=
  ⟨standsIn_start source options, fun _ hd => nomatch hd⟩

theorem passing {p : Piece} (h : l.Sound source) (hr : l.cursor.rest = p.text ++ rest)
    (hf : p.Fits l.isStrict rest) :
    (l.passing p).lexer.Sound source ∧
      ∀ e, (l.passing p).answer = .error e → (l.passing p).lexer.Reports source e := by
  obtain ⟨herrors, hwarnings⟩ := Piece.located_transcript h.stands hr hf
  have hrest : (l.passing p).lexer.cursor.rest = rest := by
    rw [cursor_passing, Cursor.rest_pass hr]
  refine ⟨⟨?_, ?_⟩, ?_⟩
  · rw [cursor_passing]
    exact h.stands.pass hr
  · intro d hd
    simp only [Lexer.passing, diagnostics_keep, collector_pass, List.mem_append] at hd
    rcases hd with hd | hd
    · exact h.kept d hd
    · exact hwarnings d hd
  · intro e he
    have hanswer : p.answer l.isStrict l.cursor.passed.head? (l.cursor.spanOf p.text) = .error e :=
      he
    refine ⟨herrors e (by simp [Piece.transcript, hanswer, item?]), ?_⟩
    rintro span rfl
    obtain ⟨-, hafter, -⟩ := Piece.isAbout_of_error hf hanswer
    exact hrest.trans hafter

theorem scanToken (h : l.Sound source) :
    l.scanToken.lexer.Sound source ∧
      ∀ e, l.scanToken.answer = .error e → l.scanToken.lexer.Reports source e := by
  by_cases hne : l.cursor.rest = []
  · have hend : l.scanToken = ⟨.ok none, l⟩ := by simp [Lexer.scanToken, hne]
    rw [hend]
    refine ⟨h, fun e he => ?_⟩
    contradiction
  · obtain ⟨p, rest, hr, hf, hstep⟩ := exists_scanToken_eq h.stands.column_pos hne
    rw [hstep]
    exact h.passing hr hf

theorem next (h : l.Sound source) :
    l.next.2.Sound source ∧ ∀ e, l.next.1 = some (.error e) → l.next.2.Reports source e := by
  fun_induction Lexer.next l with
  | case1 l hr =>
    refine ⟨h, fun e he => ?_⟩
    contradiction
  | case2 l ch rest hr step token ht =>
    refine ⟨h.scanToken.1, fun e he => ?_⟩
    cases he
  | case3 l ch rest hr step ht ih => exact ih h.scanToken.1
  | case4 l ch rest hr step e ht =>
    refine ⟨h.scanToken.1, fun e' he => ?_⟩
    cases he
    exact h.scanToken.2 e ht

end Lexer.Sound

-- ---------------------------------------------------------------------------
-- Runs
-- ---------------------------------------------------------------------------

/-- Operations that scan for a token. Runs to the end of a source consist of them. -/
def Operation.Scans (op : Operation) : Prop := op = .scanToken ∨ op = .next

namespace Lexer

variable {l : Lexer} {op : Operation} {ops : List Operation}

theorem Sound.perform (h : l.Sound source) (hop : op.Scans) :
    (l.perform op).2.Sound source ∧
      ∀ e, (l.perform op).1 = .error e → (l.perform op).2.Reports source e := by
  rcases hop with rfl | rfl
  · refine ⟨h.scanToken.1, fun e he => h.scanToken.2 e ?_⟩
    simp only [Lexer.perform] at he
    cases ha : l.scanToken.answer with
    | error e' =>
      rw [ha] at he
      cases he
      rfl
    | ok token? => cases token? <;> simp [ha, Outcome.ofExcept, Outcome.ofToken?] at he
  · obtain ⟨hafter, hreports⟩ := h.next
    simp only [Lexer.perform]
    cases hn : l.next with
    | mk item? after =>
      rw [hn] at hafter hreports
      cases item? with
      | none =>
        refine ⟨hafter, fun e he => ?_⟩
        contradiction
      | some item =>
        refine ⟨hafter, fun e he => hreports e ?_⟩
        cases item with
        | error e' =>
          cases he
          rfl
        | ok token => contradiction

theorem perform_of_end (hr : l.cursor.rest = []) (hop : op.Scans) :
    ((l.perform op).1 = .nothing ∨ (l.perform op).1 = .exhausted) ∧ (l.perform op).2 = l := by
  rcases hop with rfl | rfl
  · simp [perform, scanToken, hr, Outcome.ofExcept, Outcome.ofToken?]
  · simp [perform, next_of_end hr]

theorem performAll_cons (l : Lexer) (op : Operation) (ops : List Operation) :
    l.performAll (op :: ops) =
      ((l.perform op).1 :: ((l.perform op).2.performAll ops).1,
        ((l.perform op).2.performAll ops).2) := rfl

theorem performAll_of_end (hr : l.cursor.rest = []) (hops : ∀ op ∈ ops, op.Scans) :
    ∀ o ∈ (l.performAll ops).1, o = .nothing ∨ o = .exhausted := by
  induction ops with
  | nil => simp [performAll]
  | cons op ops ih =>
    obtain ⟨hop, hops⟩ := List.forall_mem_cons.mp hops
    obtain ⟨houtcome, hafter⟩ := perform_of_end hr hop
    rw [performAll_cons, hafter]
    exact List.forall_mem_cons.mpr ⟨houtcome, ih hops⟩

theorem Sound.performAll (h : l.Sound source) (hops : ∀ op ∈ ops, op.Scans) :
    (l.performAll ops).2.Sound source ∧
      (∀ e, .error e ∈ (l.performAll ops).1 → e.Located source) ∧
      ∀ earlier span later,
        (l.performAll ops).1 = earlier ++ .error (.unterminatedString span) :: later →
          ∀ o ∈ later, o = .nothing ∨ o = .exhausted := by
  induction ops generalizing l with
  | nil => exact ⟨h, by simp [Lexer.performAll], by simp [Lexer.performAll]⟩
  | cons op ops ih =>
    obtain ⟨hop, hops⟩ := List.forall_mem_cons.mp hops
    obtain ⟨hafter, hreports⟩ := h.perform hop
    obtain ⟨hlast, herrors, hopen⟩ := ih hafter hops
    rw [performAll_cons]
    refine ⟨hlast, fun e he => ?_, fun earlier span later heq => ?_⟩
    · rcases List.mem_cons.mp he with he | he
      · exact (hreports e he.symm).located
      · exact herrors e he
    · cases earlier with
      | nil =>
        obtain ⟨houtcome, rfl⟩ := List.cons.inj heq
        exact performAll_of_end ((hreports _ houtcome).atEnd span rfl) hops
      | cons o earlier => exact hopen earlier span later (List.cons.inj heq).2

end Lexer

/-- Scanning a source token by token, past errors and for as long as one likes, gives errors and
warnings at right places only, and gives nothing more behind a string that the end cut off. -/
theorem performAll_locates {options : Options} {l : Lexer} {ops : List Operation}
    (hl : Lexer.start? source options = .ok l) (hops : ∀ op ∈ ops, op.Scans) :
    (∀ e, .error e ∈ (l.performAll ops).1 → e.Located source) ∧
      (∀ d ∈ (l.performAll ops).2.collector.diagnostics, d.Located source) ∧
      ∀ earlier span later,
        (l.performAll ops).1 = earlier ++ .error (.unterminatedString span) :: later →
          ∀ o ∈ later, o = .nothing ∨ o = .exhausted := by
  obtain ⟨rfl, -⟩ := Lexer.eq_start_of_start? hl
  obtain ⟨hlast, herrors, hopen⟩ := (Lexer.Sound.start source options).performAll hops
  exact ⟨herrors, hlast.kept, hopen⟩

theorem performAll_locates_second_line :
    ∃ l, Lexer.start? "é\n\"a" {} = .ok l ∧
      (∀ op ∈ List.replicate 4 Operation.scanToken, op.Scans) ∧
      (l.performAll (List.replicate 4 .scanToken)).1 =
        [.error (.unexpectedCharacter 'é' ⟨0, 2, 1, 1⟩), .nothing,
          .error (.unterminatedString ⟨3, 5, 2, 1⟩), .nothing] ∧
      (LexError.unexpectedCharacter 'é' ⟨0, 2, 1, 1⟩).Located "é\n\"a" ∧
      (LexError.unterminatedString ⟨3, 5, 2, 1⟩).Located "é\n\"a" := by
  have hstart : Lexer.start? "é\n\"a" {} = .ok (Lexer.start "é\n\"a" {}) := by rfl
  have hops : ∀ op ∈ List.replicate 4 Operation.scanToken, op.Scans :=
    fun op hop => .inl (List.eq_of_mem_replicate hop)
  have houtcomes : ((Lexer.start "é\n\"a" {}).performAll (List.replicate 4 .scanToken)).1 =
      [.error (.unexpectedCharacter 'é' ⟨0, 2, 1, 1⟩), .nothing,
        .error (.unterminatedString ⟨3, 5, 2, 1⟩), .nothing] := by
    decide +kernel
  obtain ⟨herrors, -, -⟩ := performAll_locates hstart hops
  rw [houtcomes] at herrors
  exact ⟨_, hstart, hops, houtcomes, herrors _ (by simp), herrors _ (by simp)⟩

end ScriptLex
