import ScriptLex.Diagnostic.Report
import ScriptLex.Proofs.Controls
import ScriptLex.Proofs.Lines
import ScriptLex.Proofs.Location

/-!
# Reports point at the offending text

Three computations meet in a report: the line and column that the cursor has
counted, the lines of the source, and the first line of what the span covers.
They agree on whatever a run says about its source, so the snippet is always
there and its carets stand under the offending text.
-/

namespace ScriptLex

-- ---------------------------------------------------------------------------
-- Layout
-- ---------------------------------------------------------------------------

def numberColumn (n : Nat) : List Char := (Nat.toDigits 10 n).leftpad 3 ' '

namespace Diagnostic

/-- The lines of a report that marks `covered` on the line `lead ++ covered ++ tail`. -/
def layout (d : Diagnostic) (code : Code) (lead covered tail : List Char) : List String :=
  [s!"{d.level.name}[{code.text}]: {d.message}",
    " --> " ++ s!"{d.span.line}:{d.span.column}",
    String.ofList (numberColumn d.span.line ++ [' ', '|', ' '] ++ (lead ++ covered ++ tail)),
    String.ofList (List.replicate (numberColumn d.span.line).length ' ' ++ [' ', '|', ' '] ++
      (List.replicate (d.span.column - 1) ' ' ++ List.replicate covered.length '^'))] ++
    d.notes.map ("  = note: " ++ ·) ++ d.helps.map ("  = help: " ++ ·)

end Diagnostic

namespace Snippet

theorem gutter_eq (s : Snippet) (content : List Char) :
    s.gutter content = String.ofList
      (content.leftpad (numberColumn s.lineNumber).length ' ' ++ [' ', '|', ' ']) := by
  have hwidth : (numberColumn s.lineNumber).length =
      max (Nat.toDigits 10 s.lineNumber).length 3 := by
    rw [numberColumn, List.length_leftpad, Nat.max_comm]
  rw [hwidth, String.ofList_append]
  rfl

theorem leftpad_numberColumn (n : Nat) :
    (Nat.toDigits 10 n).leftpad (numberColumn n).length ' ' = numberColumn n := by
  rw [numberColumn, List.length_leftpad, List.leftpad, List.leftpad]
  congr 2
  omega

end Snippet

-- ---------------------------------------------------------------------------
-- Snippets
-- ---------------------------------------------------------------------------

variable {source : String} {before text after : List Char} {span : Span}

/-- Text that starts with something to see and ends where its line does, or before. -/
structure Visible (text after : List Char) : Prop where
  head : ∃ c cs, text = c :: cs ∧ c ≠ '\n' ∧ c ≠ '\r'
  ends : after = [] ∨ '\n' ∉ text ∧ text.getLast? ≠ some '\r'

namespace Visible

theorem firstLine_ne_nil (h : Visible text after) : firstLine text ≠ [] := by
  obtain ⟨c, cs, rfl, hc, hr⟩ := h.head
  rw [firstLine_cons hc hr]
  exact List.cons_ne_nil c _

/-- The line around the text starts with the first line of the text. What stands behind that
stands behind the text as well. -/
theorem exists_tail (h : Visible text after) {lead : List Char} (hlead : '\n' ∉ lead) :
    ∃ tail, firstLine (lead ++ (text ++ after)) = lead ++ firstLine text ++ tail ∧
      (firstLine text = text ∨ tail = []) := by
  obtain ⟨c, cs, htext, hc, hr⟩ := h.head
  rcases h.ends with hafter | ⟨hnewline, hreturn⟩
  · -- The lead may end with `\r`, so the first character of the text goes with it.
    have hsplit : lead ++ (text ++ after) = (lead ++ [c]) ++ cs := by simp [hafter, htext]
    have hhead : '\n' ∉ lead ++ [c] := by simp [hlead, Ne.symm hc]
    have hwhole := firstLine_append hhead (by simpa using hr) cs
    refine ⟨[], ?_, .inr rfl⟩
    rw [hsplit, hwhole, htext, firstLine_cons hc hr]
    simp
  · have hall : '\n' ∉ lead ++ text := by simp [hlead, hnewline]
    have hwhole := firstLine_append hall (by simpa [htext] using hreturn) after
    refine ⟨firstLine after, ?_, .inl (firstLine_of_notMem hnewline)⟩
    rw [← List.append_assoc, hwhole, firstLine_of_notMem hnewline]

end Visible

theorem Span.Locates.width_eq (h : span.Locates source before text after)
    (hv : Visible text after) : Snippet.width source span = (firstLine text).length := by
  have hpos := List.length_pos_iff.mpr hv.firstLine_ne_nil
  obtain ⟨c, cs, htext, -⟩ := hv.head
  have hhead := Text.head?_lines (htext ▸ List.cons_ne_nil c cs)
  simp only [Snippet.width, h.slice?_eq, String.toList_ofList, hhead, Option.getD_some]
  exact max_eq_left hpos

theorem Span.Locates.ofSource_eq (h : span.Locates source before text after)
    (hv : Visible text after)
    (hline : firstLine (lastLine before ++ (text ++ after)) =
      lastLine before ++ firstLine text ++ tail) :
    Snippet.ofSource source span = .ok
      ⟨String.ofList (lastLine before ++ firstLine text ++ tail), span.line, span.column,
        span.column + (firstLine text).length⟩ := by
  have hpos := List.length_pos_iff.mpr hv.firstLine_ne_nil
  have hne : text ++ after ≠ [] := by
    obtain ⟨c, cs, htext, -⟩ := hv.head
    simp [htext]
  have hsource : source.isEmpty = false := by
    refine eq_false_of_ne_true fun hempty => hne ?_
    have hnil := h.source_eq
    rw [String.isEmpty_iff.mp hempty] at hnil
    simp_all
  have hnamed : (Text.lines source.toList)[span.line - 1]? =
      some (lastLine before ++ firstLine text ++ tail) := by
    rw [← hline, h.line_eq, h.source_eq, List.append_assoc, Nat.add_sub_cancel]
    exact Text.getElem?_lines before hne
  have hlength : (lastLine before ++ firstLine text ++ tail).length =
      (lastLine before).length + (firstLine text).length + tail.length := by
    rw [List.length_append, List.length_append]
  have hstart : max span.column 1 = span.column := by
    rw [h.column_eq]
    omega
  have hstop : max (min (span.column + (firstLine text).length)
      ((lastLine before ++ firstLine text ++ tail).length + 2)) (span.column + 1) =
        span.column + (firstLine text).length := by
    rw [hlength, h.column_eq]
    omega
  simp only [Snippet.ofSource, hsource, Bool.false_eq_true, if_false, hnamed, hstart,
    h.width_eq hv, hstop]

theorem Span.Locates.reportLines_eq {d : Diagnostic} (h : d.span.Locates source before text after)
    (hv : Visible text after) (hcode : d.code = some code)
    (hline : firstLine (lastLine before ++ (text ++ after)) =
      lastLine before ++ firstLine text ++ tail) :
    d.reportLines source = d.layout code (lastLine before) (firstLine text) tail := by
  have hpos := List.length_pos_iff.mpr hv.firstLine_ne_nil
  have hsomewhere : d.span ≠ Span.nowhere := by
    intro hspan
    have hl := h.line_eq
    rw [hspan] at hl
    exact absurd hl (Nat.succ_ne_zero _).symm
  have hcarets : max (d.span.column + (firstLine text).length - d.span.column) 1 =
      (firstLine text).length := by
    omega
  rw [Diagnostic.reportLines, Diagnostic.locationLines, if_neg hsomewhere,
    h.ofSource_eq hv hline, Diagnostic.header, hcode, Diagnostic.layout]
  simp only [Snippet.sourceLine, Snippet.caretLine, Snippet.gutter_eq,
    Snippet.leftpad_numberColumn, hcarets, ← String.ofList_append]
  simp [List.leftpad, Span.place]

-- ---------------------------------------------------------------------------
-- One line each
-- ---------------------------------------------------------------------------

def OneLine (s : String) : Prop := '\n' ∉ s.toList

@[simp] theorem oneLine_iff (s : String) : OneLine s ↔ '\n' ∉ s.toList := Iff.rfl

theorem OneLine.append (hs : OneLine s) (ht : OneLine t) : OneLine (s ++ t) := by
  intro h
  rw [String.toList_append, List.mem_append] at h
  exact h.elim hs ht

theorem oneLine_ofList (h : '\n' ∉ cs) : OneLine (String.ofList cs) := by
  rwa [OneLine, String.toList_ofList]

theorem newline_notMem_toDigits (hb : 1 < b) (n : Nat) : '\n' ∉ Nat.toDigits b n :=
  (controlFree_toDigits hb n).newline_notMem

theorem oneLine_toString (n : Nat) : OneLine (toString n) := (controlFree_toString n).newline_notMem

theorem oneLine_quotedChar (c : Char) : OneLine (Text.quotedChar c) :=
  (controlFree_quotedChar c).newline_notMem

theorem newline_notMem_leftpad (hc : c ≠ '\n') (h : '\n' ∉ cs) (n : Nat) :
    '\n' ∉ List.leftpad n c cs := by
  simp [List.leftpad, h, Ne.symm hc]

structure Diagnostic.Plain (d : Diagnostic) (code : Code) : Prop where
  code_eq : d.code = some code
  letter : OneLine code.letter
  message : OneLine d.message
  notes : ∀ note ∈ d.notes, OneLine note
  helps : ∀ help ∈ d.helps, OneLine help

theorem Diagnostic.Plain.oneLine_of_mem_layout {d : Diagnostic} {code : Code} (h : d.Plain code)
    (hline : '\n' ∉ lead ++ covered ++ tail) :
    ∀ line ∈ d.layout code lead covered tail, OneLine line := by
  have hlevel : OneLine d.level.name := by cases d.level <;> simp [Level.name]
  have hdigits : '\n' ∉ (Nat.toDigits 10 code.number).leftpad 4 '0' :=
    newline_notMem_leftpad (by decide) (newline_notMem_toDigits (by decide) _) 4
  have hcode : OneLine code.text := h.letter.append (oneLine_ofList hdigits)
  have hnumber : '\n' ∉ numberColumn d.span.line :=
    newline_notMem_leftpad (by decide) (newline_notMem_toDigits (by decide) _) 3
  intro line hmem
  simp only [Diagnostic.layout, List.cons_append, List.nil_append, List.mem_cons, List.mem_append,
    List.mem_map] at hmem
  rcases hmem with rfl | rfl | rfl | rfl | ⟨note, hnote, rfl⟩ | ⟨help, hhelp, rfl⟩
  · have hopen : OneLine "[" := by simp
    have hclose : OneLine "]: " := by simp
    exact (((hlevel.append hopen).append hcode).append hclose).append h.message
  · have hcolon : OneLine ":" := by simp
    have hplace := ((oneLine_toString d.span.line).append hcolon).append
      (oneLine_toString d.span.column)
    exact .append (by simp) hplace
  · apply oneLine_ofList
    simp_all
  · apply oneLine_ofList
    simp
  · exact .append (by simp) (h.notes note hnote)
  · exact .append (by simp) (h.helps help hhelp)

-- ---------------------------------------------------------------------------
-- Errors and warnings of runs
-- ---------------------------------------------------------------------------

theorem Span.Locates.text_ne_nil (h : span.Locates source before text after) : text ≠ [] := by
  rintro rfl
  have hlt := h.start_lt
  rw [h.start_eq, h.stop_eq] at hlt
  exact absurd hlt (Nat.lt_irrefl _)

theorem visible_of_forall (hne : text ≠ []) (h : ∀ c ∈ text, isBlank c = false) :
    Visible text after := by
  have hnewline : '\n' ∉ text := fun hmem => absurd (h _ hmem) (by decide)
  have hreturn : '\r' ∉ text := fun hmem => absurd (h _ hmem) (by decide)
  constructor
  · obtain ⟨c, cs, rfl⟩ := List.exists_cons_of_ne_nil hne
    refine ⟨c, cs, rfl, ?_, ?_⟩
    · rintro rfl
      exact hnewline List.mem_cons_self
    · rintro rfl
      exact hreturn List.mem_cons_self
  · exact .inr ⟨hnewline, fun hlast => hreturn (List.mem_of_getLast? hlast)⟩

theorem visible_singleton (h : isBlank ch = false) : Visible [ch] after := by
  refine visible_of_forall (List.cons_ne_nil ch []) fun c hc => ?_
  rwa [List.mem_singleton.mp hc]

theorem visible_openString (s : List Char) : Visible ('\"' :: s) [] :=
  ⟨⟨_, s, rfl, by decide, by decide⟩, .inl rfl⟩

theorem isBlank_eq_false_of_isDigit (h : c.isDigit = true) : isBlank c = false := by
  refine eq_false_of_ne_true fun hb => ?_
  rw [(class_of_isBlank hb).2.2.2.1] at h
  contradiction

theorem oneLine_of_isDigit (h : ∀ c ∈ text, c.isDigit = true) : OneLine (String.ofList text) :=
  oneLine_ofList (controlFree_of_isDigit h).newline_notMem

namespace LexError

variable {e : LexError}

theorem IsAbout.visible (h : e.IsAbout after text) (hne : text ≠ []) : Visible text after := by
  cases e with
  | emptyInput => contradiction
  | unexpectedCharacter ch place =>
    obtain ⟨rfl, hch⟩ := h
    apply visible_singleton
    rcases hch with hch | rfl
    · exact (class_of_isForeign hch).2.2.2.2.2
    · rfl
  | unterminatedString place =>
    obtain ⟨rfl, s, rfl, -⟩ := h
    exact visible_openString s
  | integerOverflow digits place =>
    exact visible_of_forall hne fun c hc => isBlank_eq_false_of_isDigit (h.2 c hc)

theorem oneLine_letter (e : LexError) : OneLine e.code.letter := by
  have h : OneLine "E" := by simp
  cases e <;> exact h

theorem oneLine_notes (e : LexError) : ∀ note ∈ e.notes, OneLine note := by
  intro note hnote
  cases e with
  | emptyInput | unterminatedString => contradiction
  | unexpectedCharacter ch place =>
    simp only [notes] at hnote
    split at hnote
    · obtain rfl := List.mem_singleton.mp hnote
      simp
    · contradiction
  | integerOverflow digits place =>
    obtain rfl := List.mem_singleton.mp hnote
    have hlargest : OneLine "the largest literal is " := by simp
    exact hlargest.append (oneLine_toString _)

theorem oneLine_helps (e : LexError) : ∀ help ∈ e.helps, OneLine help := by
  intro help hhelp
  cases e with
  | emptyInput | unexpectedCharacter | integerOverflow => contradiction
  | unterminatedString place =>
    obtain rfl := List.mem_singleton.mp hhelp
    simp

theorem IsAbout.oneLine_problem (h : e.IsAbout after text) : OneLine e.problem := by
  cases e with
  | emptyInput => contradiction
  | unexpectedCharacter ch place => exact .append (by simp) (oneLine_quotedChar ch)
  | unterminatedString place =>
    have hproblem : OneLine "unterminated string literal" := by simp
    exact hproblem
  | integerOverflow digits place =>
    obtain ⟨rfl, hall⟩ := h
    have hdigits := oneLine_of_isDigit hall
    rw [String.ofList_toList] at hdigits
    exact .append (.append (by simp) hdigits) (by simp)

theorem IsAbout.plain (h : e.IsAbout after text) : e.toDiagnostic.Plain e.code :=
  ⟨rfl, e.oneLine_letter, h.oneLine_problem, e.oneLine_notes, e.oneLine_helps⟩

end LexError

namespace Diagnostic

variable {d : Diagnostic} {code : Code} {message : String}

theorem plain_warning (hcode : OneLine code.letter) (h : OneLine message) (place : Span) :
    ((warning message place).withCode code).Plain code :=
  ⟨rfl, hcode, h, fun _ hnote => (List.not_mem_nil hnote).elim,
    fun _ hhelp => (List.not_mem_nil hhelp).elim⟩

theorem IsAbout.visible (h : d.IsAbout after text) (hne : text ≠ []) : Visible text after := by
  cases h with
  | foreign hch => exact visible_singleton (class_of_isForeign hch).2.2.2.2.2
  | quote => exact visible_singleton rfl
  | wrapped n hdigits =>
    exact visible_of_forall hne fun c hc => isBlank_eq_false_of_isDigit (hdigits c hc)
  | openString hs hafter =>
    subst hafter
    exact visible_openString _

theorem IsAbout.exists_plain (h : d.IsAbout after text) : ∃ code, d.Plain code := by
  have hletter : OneLine "W" := by simp
  cases h with
  | foreign hch =>
    refine ⟨.droppedInput, plain_warning hletter ?_ _⟩
    exact .append (by simp) (oneLine_quotedChar _)
  | quote => exact ⟨.droppedInput, plain_warning hletter (by simp) _⟩
  | wrapped n hdigits =>
    refine ⟨.wrappedInteger, plain_warning hletter ?_ _⟩
    exact .append (.append (.append (by simp) (oneLine_of_isDigit hdigits)) (by simp))
      (oneLine_toString _)
  | openString hs hafter => exact ⟨.openString, plain_warning hletter (by simp) _⟩

/-- The report is laid out around the line on which the span starts. That line reads
`lead ++ covered ++ tail`, where `covered` is all that the span has on it. -/
structure Shows (d : Diagnostic) (source : String) (before text after covered tail : List Char) :
    Prop where
  locates : d.span.Locates source before text after
  line_eq : firstLine (lastLine before ++ (text ++ after)) = lastLine before ++ covered ++ tail
  covered_ne_nil : covered ≠ []
  covered_isPrefix : covered <+: text
  ends : covered = text ∨ tail = []
  report_eq : ∃ code, d.code = some code ∧
    d.report source = Text.unlines (d.layout code (lastLine before) covered tail) ∧
    ∀ line ∈ d.layout code (lastLine before) covered tail, OneLine line

theorem Plain.exists_shows (h : d.Plain code) (hl : d.span.Locates source before text after)
    (hv : Visible text after) : ∃ covered tail, d.Shows source before text after covered tail := by
  obtain ⟨tail, hline, hends⟩ := hv.exists_tail (newline_notMem_lastLine before)
  have honeLine := newline_notMem_firstLine (lastLine before ++ (text ++ after))
  rw [hline] at honeLine
  refine ⟨firstLine text, tail, hl, hline, hv.firstLine_ne_nil, firstLine_isPrefix text, hends,
    code, h.code_eq, ?_, h.oneLine_of_mem_layout honeLine⟩
  rw [report, hl.reportLines_eq hv h.code_eq hline]

end Diagnostic

def Transcript.Tells (t : Transcript) (d : Diagnostic) : Prop :=
  d ∈ t.warnings ∨ ∃ e, .error e ∈ t.items ∧ d = e.toDiagnostic

/-- Every report on an error or a warning of a run points at the text that it is about. -/
theorem report_shows {options : Options} (ht : transcript? source options = .ok t)
    (hd : t.Tells d) :
    ∃ before text after covered tail, d.Shows source before text after covered tail := by
  obtain ⟨herrors, hwarnings⟩ := located_of_transcript? ht
  rcases hd with hd | ⟨e, he, rfl⟩
  · obtain ⟨before, text, after, hlocates, habout⟩ := hwarnings d hd
    obtain ⟨code, hplain⟩ := habout.exists_plain
    exact ⟨before, text, after, hplain.exists_shows hlocates (habout.visible hlocates.text_ne_nil)⟩
  · obtain ⟨span, before, text, after, hspan, hlocates, habout⟩ := herrors e he
    have hplace : e.toDiagnostic.span = span := by simp [LexError.toDiagnostic, hspan]
    have hvisible := habout.visible hlocates.text_ne_nil
    rw [← hplace] at hlocates
    exact ⟨before, text, after, habout.plain.exists_shows hlocates hvisible⟩

theorem report_shows_second_line :
    ∃ t, transcript? "é\r\n=\"a\r\nb" {} = .ok t ∧
      t.Tells (LexError.unterminatedString ⟨5, 10, 2, 2⟩).toDiagnostic ∧
      ∃ before text after covered tail,
        (LexError.unterminatedString ⟨5, 10, 2, 2⟩).toDiagnostic.Shows "é\r\n=\"a\r\nb"
          before text after covered tail := by
  have hsource : "é\r\n=\"a\r\nb".toList =
      ['é', '\r', '\n', '=', '\"', 'a', '\r', '\n', 'b'] := by decide
  have hreads : Reads true (Cursor.start "é\r\n=\"a\r\nb") _ :=
    .piece (p := .foreign 'é') hsource rfl
      (.blank (Cursor.rest_pass hsource) rfl
        (.blank (Cursor.rest_pass (Cursor.rest_pass hsource)) rfl
          (.piece (p := .equals) (Cursor.rest_pass (Cursor.rest_pass (Cursor.rest_pass hsource)))
            trivial
            (.piece (p := .openString ['a', '\r', '\n', 'b'])
              (Cursor.rest_pass (Cursor.rest_pass (Cursor.rest_pass (Cursor.rest_pass hsource))))
              ⟨by decide, rfl, fun h => by contradiction⟩ (.done rfl)))))
  have hspan : ((((((Cursor.start "é\r\n=\"a\r\nb").pass ['é']).pass ['\r']).pass ['\n']).pass
      ['=']).spanOf ['\"', 'a', '\r', '\n', 'b']) = ⟨5, 10, 2, 2⟩ := by rfl
  have ht : transcript? "é\r\n=\"a\r\nb" {} =
      .ok (Lexer.start "é\r\n=\"a\r\nb" {}).transcript := transcript?_eq (by decide)
  have htells : (Lexer.start "é\r\n=\"a\r\nb" {}).transcript.Tells
      (LexError.unterminatedString ⟨5, 10, 2, 2⟩).toDiagnostic := by
    rw [hreads.transcript_eq (Lexer.standsIn_start _ _) rfl rfl]
    refine .inr ⟨.unterminatedString ⟨5, 10, 2, 2⟩, ?_, rfl⟩
    simp [Piece.transcript, Piece.answer, item?, Piece.text, hspan]
  exact ⟨_, ht, htells, report_shows ht htells⟩

example : (LexError.unterminatedString ⟨5, 10, 2, 2⟩).toDiagnostic.report "é\r\n=\"a\r\nb" =
    "error[E1003]: unterminated string literal\n --> 2:2\n  2 | =\"a\n    |  ^^\n" ++
      "  = help: add a closing `\"`\n" := by
  rfl

end ScriptLex
