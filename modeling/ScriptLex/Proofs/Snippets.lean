import ScriptLex.Proofs.Machine.Report
import ScriptLex.Proofs.Machine.Walk
import ScriptLex.Proofs.Rendering

/-!
# Snippets of any span

The line, the column and the range of a span need not agree with each other,
nor with the source. `ofSource_sane` says what a snippet is for spans of
machine words, whatever they hold: only a line that the source does not have
is refused. `ofSource_walk` says what it is at each place that a cursor can
reach. The cursor counts an empty line behind a final line end, which is no
line of the source, so there the snippet is missing.
-/

namespace ScriptLex

/-- A span of machine words, which may contradict each other. -/
def Span.ofWords (start stop : UInt64) (line column : UInt32) : Span :=
  ⟨start.toNat, stop.toNat, line.toNat, column.toNat⟩

namespace Snippet

variable {source : String} {span : Span} {line : List Char}

/-- Two lines behind gutters of the same width, with carets from the start column to the stop
column. -/
def LaidOut (s : Snippet) : Prop :=
  s.text.toList.splitOn '\n' =
    [numberColumn s.lineNumber ++ [' ', '|', ' '] ++ s.line.toList,
      List.replicate (numberColumn s.lineNumber).length ' ' ++ [' ', '|', ' '] ++
        (List.replicate (s.startColumn - 1) ' ' ++
          List.replicate (s.stopColumn - s.startColumn) '^')]

/-- The snippet shows the line that the span names, line zero being the first, and highlights at
least one column and at most those up to one behind the end of the line. -/
structure CutBy (source : String) (span : Span) (s : Snippet) : Prop where
  lineNumber_eq : s.lineNumber = span.line
  line_eq : if source = "" then s.line = ""
    else Text.IsLine source.toList (max span.line 1) s.line.toList
  startColumn_eq : s.startColumn = max span.column 1
  startColumn_lt : s.startColumn < s.stopColumn
  stopColumn_le : s.stopColumn ≤ max (s.line.length + 2) (s.startColumn + 1)
  laidOut : s.LaidOut

structure Sane (source : String) (span : Span) : Prop where
  fails_iff : (∃ e, ofSource source span = .error e) ↔
    source ≠ "" ∧ Text.lineCount source.toList < max span.line 1
  error_eq : ∀ e, ofSource source span = .error e →
    e = .noSuchLine (max span.line 1) (Text.lineCount source.toList)
  cutBy : ∀ s, ofSource source span = .ok s → s.CutBy source span
  snippet_eq : source.utf8ByteSize < Machine.textLimit →
    Machine.snippet source span = .ok (ofSource source span)
  caretLine_eq : source.utf8ByteSize < Machine.textLimit →
    ∀ s, ofSource source span = .ok s → Machine.caretLine s = .ok s.caretLine

-- ---------------------------------------------------------------------------
-- Cutting
-- ---------------------------------------------------------------------------

def named? (source : String) (span : Span) : Option (List Char) :=
  if source = "" then some [] else (Text.lines source.toList)[span.line - 1]?

def cut (source : String) (span : Span) (line : List Char) : Snippet :=
  ⟨String.ofList line, span.line, max span.column 1,
    max (min (max span.column 1 + width source span) (line.length + 2)) (max span.column 1 + 1)⟩

theorem ofSource_of_some (h : named? source span = some line) :
    ofSource source span = .ok (cut source span line) := by
  simp only [named?, ← String.isEmpty_iff] at h
  simp only [ofSource, h, cut]

theorem lineCount_pos (h : source ≠ "") : 0 < Text.lineCount source.toList := by
  rw [← Text.length_lines, List.length_pos_iff, ne_eq, Text.lines_eq_nil_iff]
  simpa using h

theorem named?_eq_none_iff :
    named? source span = none ↔
      source ≠ "" ∧ Text.lineCount source.toList < max span.line 1 := by
  unfold named?
  split
  · next h => simp [h]
  · next h =>
    have hcount := lineCount_pos h
    rw [List.getElem?_eq_none_iff, Text.length_lines]
    simp only [ne_eq, h, not_false_eq_true, true_and]
    omega

theorem ofSource_of_none (h : named? source span = none) :
    ofSource source span =
      .error (.noSuchLine (max span.line 1) (Text.lineCount source.toList)) := by
  have hbeyond := (named?_eq_none_iff.mp h).2
  have hcount := lineCount_pos (named?_eq_none_iff.mp h).1
  have hline : max span.line 1 = span.line := by omega
  have hlines : max (Text.lines source.toList).length 1 = Text.lineCount source.toList := by
    rw [Text.length_lines]
    omega
  simp only [named?, ← String.isEmpty_iff] at h
  simp only [ofSource, h, hline, hlines]

theorem isLine_of_named? (h : named? source span = some line) :
    if source = "" then String.ofList line = ""
    else Text.IsLine source.toList (max span.line 1) line := by
  unfold named? at h
  split at h
  · next hempty =>
    obtain rfl := Option.some.inj h
    rw [if_pos hempty]
  · next hne =>
    have hline : max span.line 1 = span.line - 1 + 1 := by omega
    rw [if_neg hne, hline]
    exact Text.isLine_succ_iff.mpr h

theorem newline_notMem_of_named? (h : named? source span = some line) : '\n' ∉ line := by
  unfold named? at h
  split at h
  · obtain rfl := Option.some.inj h
    exact List.not_mem_nil
  · obtain ⟨before, rest, -, -, -, -, rfl⟩ := Text.isLine_succ_iff.mpr h
    exact newline_notMem_firstLine rest

-- ---------------------------------------------------------------------------
-- Layout
-- ---------------------------------------------------------------------------

theorem newline_notMem_numberColumn (n : Nat) : '\n' ∉ numberColumn n :=
  newline_notMem_leftpad (by decide) (newline_notMem_toDigits (by decide) n) 3

theorem sourceLine_eq (s : Snippet) :
    s.sourceLine =
      String.ofList (numberColumn s.lineNumber ++ [' ', '|', ' '] ++ s.line.toList) := by
  rw [sourceLine, gutter_eq, leftpad_numberColumn, @String.ofList_append _ s.line.toList,
    String.ofList_toList]

theorem caretLine_eq_ofList {s : Snippet} (h : s.startColumn < s.stopColumn) :
    s.caretLine = String.ofList
      (List.replicate (numberColumn s.lineNumber).length ' ' ++ [' ', '|', ' '] ++
        (List.replicate (s.startColumn - 1) ' ' ++
          List.replicate (s.stopColumn - s.startColumn) '^')) := by
  have hcarets : max (s.stopColumn - s.startColumn) 1 = s.stopColumn - s.startColumn := by omega
  rw [caretLine, gutter_eq, hcarets, ← String.ofList_append]
  simp [List.leftpad]

theorem laidOut_of_lt {s : Snippet} (hline : '\n' ∉ s.line.toList)
    (h : s.startColumn < s.stopColumn) : s.LaidOut := by
  have hsource : '\n' ∉ s.sourceLine.toList := by
    rw [sourceLine_eq, String.toList_ofList]
    simp [newline_notMem_numberColumn, hline]
  have hcarets : '\n' ∉ s.caretLine.toList := by
    rw [caretLine_eq_ofList h, String.toList_ofList]
    simp
  have htext : s.text.toList = s.sourceLine.toList ++ '\n' :: s.caretLine.toList := by
    simp [text]
  rw [LaidOut, htext, List.splitOn_append_cons_self_of_not_mem hsource,
    List.splitOn_eq_singleton hcarets, sourceLine_eq, caretLine_eq_ofList h,
    String.toList_ofList, String.toList_ofList]

theorem cutBy_cut (h : named? source span = some line) :
    CutBy source span (cut source span line) where
  lineNumber_eq := rfl
  line_eq := by
    rw [cut, String.toList_ofList]
    exact isLine_of_named? h
  startColumn_eq := rfl
  startColumn_lt := by
    dsimp only [cut]
    omega
  stopColumn_le := by
    simp only [cut, String.length_ofList]
    omega
  laidOut := by
    refine laidOut_of_lt ?_ (by dsimp only [cut]; omega)
    rw [cut, String.toList_ofList]
    exact newline_notMem_of_named? h

end Snippet

theorem Text.length_le_byteLength (text : List Char) : text.length ≤ Text.byteLength text := by
  induction text with
  | nil => exact Nat.le_refl 0
  | cons c cs ih =>
    have := c.utf8Size_pos
    rw [List.length_cons, Text.byteLength_cons]
    omega

/-- Every span of machine words is cut out of every source in a sane way. -/
theorem ofSource_sane (source : String) (start stop : UInt64) (line column : UInt32) :
    Snippet.Sane source (.ofWords start stop line column) := by
  have hlength (h : source.utf8ByteSize < Machine.textLimit) :
      source.toList.length < Machine.textLimit := by
    rw [← byteLength_toList] at h
    exact Nat.lt_of_le_of_lt (Text.length_le_byteLength _) h
  have hcolumn : (Span.ofWords start stop line column).column < Machine.counterLimit :=
    column.toNat_lt
  cases h : Snippet.named? source (.ofWords start stop line column) with
  | none =>
    have herror := Snippet.ofSource_of_none h
    exact {
      fails_iff := ⟨fun _ => Snippet.named?_eq_none_iff.mp h, fun _ => ⟨_, herror⟩⟩
      error_eq := fun e he => (Except.error.inj (herror.symm.trans he)).symm
      cutBy := fun s hs => nomatch herror.symm.trans hs
      snippet_eq := fun hsize => Machine.snippet_eq (hlength hsize) hcolumn
      caretLine_eq := fun _ s hs => nomatch herror.symm.trans hs }
  | some named =>
    have hok := Snippet.ofSource_of_some h
    have hwithin := Snippet.named?_eq_none_iff.not.mp (h ▸ Option.some_ne_none named)
    exact {
      fails_iff := ⟨fun ⟨_, he⟩ => (nomatch hok.symm.trans he), fun h => absurd h hwithin⟩
      error_eq := fun e he => nomatch hok.symm.trans he
      cutBy := fun s hs => Except.ok.inj (hok.symm.trans hs) ▸ Snippet.cutBy_cut h
      snippet_eq := fun hsize => Machine.snippet_eq (hlength hsize) hcolumn
      caretLine_eq := fun hsize s => Machine.caretLine_eq (hlength hsize) hcolumn }

example : Snippet.ofSource "é\r\nx" (.ofWords 18446744073709551615 1 0 4294967295) =
    .ok ⟨"é", 0, 4294967295, 4294967296⟩ := by
  rfl

-- ---------------------------------------------------------------------------
-- Snippets at cursors
-- ---------------------------------------------------------------------------

namespace Cursor

/-- The cursor is behind the last line end, on a line that the source does not have. -/
def Beyond (source : String) (c : Cursor) : Prop :=
  c.rest = [] ∧ source.toList.getLast? = some '\n'

instance (source : String) (c : Cursor) : Decidable (c.Beyond source) :=
  inferInstanceAs (Decidable (_ ∧ _))

def snippet (c : Cursor) : Snippet :=
  ⟨String.ofList (firstLine (lastLine c.passed.reverse ++ c.rest)), c.mark.line, c.mark.column,
    c.mark.column + 1⟩

variable {c : Cursor} {source : String}

theorem StandsIn.slice?_currentSpan (hs : c.StandsIn source.toList) :
    c.currentSpan.slice? source = some (String.ofList c.rest.head?.toList) := by
  have hslice := Text.slice?_append c.passed.reverse c.rest.head?.toList c.rest.tail
  have hrest : c.rest.head?.toList ++ c.rest.tail = c.rest := by cases c.rest <;> rfl
  have hstop : (c.rest.head?.map Char.utf8Size).getD 0 = Text.byteLength c.rest.head?.toList := by
    cases c.rest <;> simp
  rw [hrest, hs.text_eq, ← hstop, ← hs.offset_eq] at hslice
  rw [Span.slice?, currentSpan, hslice]
  rfl

/-- One character is one column wide, a line end too, and so is the end of the source. -/
theorem StandsIn.width_currentSpan (hs : c.StandsIn source.toList) :
    Snippet.width source c.currentSpan = 1 := by
  simp only [Snippet.width, hs.slice?_currentSpan, String.toList_ofList]
  cases c.rest with
  | nil => rfl
  | cons ch rest =>
    rw [List.head?_cons, Option.toList_some]
    by_cases hch : '\n' ∈ [ch]
    · rw [← List.mem_singleton.mp hch]
      rfl
    · rw [Text.lines_of_notMem hch (List.cons_ne_nil ch [])]
      rfl

theorem StandsIn.named?_currentSpan (hs : c.StandsIn source.toList) :
    Snippet.named? source c.currentSpan =
      if c.Beyond source then none
      else some (firstLine (lastLine c.passed.reverse ++ c.rest)) := by
  have hline : c.currentSpan.line - 1 = c.passed.reverse.count '\n' := by
    have hmark := congrArg Mark.line (hs.mark_eq.trans (Mark.past_origin _))
    rw [currentSpan, hmark, Nat.add_sub_cancel]
  rw [Snippet.named?, hline]
  cases hr : c.rest with
  | nil =>
    have hpassed : c.passed.reverse = source.toList := by
      rw [← hs.text_eq, hr, List.append_nil]
    have hbeyond : c.Beyond source ↔ source.toList.getLast? = some '\n' := and_iff_right hr
    rw [hpassed, List.append_nil, firstLine_of_notMem (newline_notMem_lastLine _)]
    by_cases hempty : source = ""
    · simp [hempty, Beyond, lastLine]
    · rw [if_neg hempty, Text.getElem?_lines_end (by simpa using hempty)]
      simp only [hbeyond]
  | cons ch rest =>
    have hbeyond : ¬ c.Beyond source := by simp [Beyond, hr]
    have hne : source ≠ "" := by
      rw [ne_eq, ← String.toList_eq_nil_iff, ← hs.text_eq, hr]
      simp
    rw [if_neg hbeyond, if_neg hne, ← hs.text_eq, hr]
    exact Text.getElem?_lines _ (List.cons_ne_nil ch rest)

theorem StandsIn.ofSource_currentSpan (hs : c.StandsIn source.toList) :
    Snippet.ofSource source c.currentSpan =
      if c.Beyond source then .error (.noSuchLine c.mark.line (c.mark.line - 1))
      else .ok c.snippet := by
  have hmark := hs.mark_eq.trans (Mark.past_origin _)
  have hnamed := hs.named?_currentSpan
  split at hnamed
  · next hbeyond =>
    have hpassed : c.passed.reverse = source.toList := by
      rw [← hs.text_eq, hbeyond.1, List.append_nil]
    have hline : max c.currentSpan.line 1 = c.mark.line := by
      rw [currentSpan, hmark]
      exact max_eq_left (Nat.le_add_left 1 _)
    have hcount : Text.lineCount source.toList = c.mark.line - 1 := by
      obtain ⟨before, hbefore⟩ := List.getLast?_eq_some_iff.mp hbeyond.2
      rw [hmark, hpassed, hbefore, Text.lineCount, lastLine_concat_newline, if_pos rfl]
      rfl
    rw [if_pos hbeyond, Snippet.ofSource_of_none hnamed, hline, hcount]
  · next hbeyond =>
    have hstart : max c.currentSpan.column 1 = c.mark.column := max_eq_left hs.column_pos
    rw [if_neg hbeyond, Snippet.ofSource_of_some hnamed, Snippet.cut, hs.width_currentSpan, hstart,
      snippet]
    have hstop : max (min (c.mark.column + 1)
        ((firstLine (lastLine c.passed.reverse ++ c.rest)).length + 2)) (c.mark.column + 1) =
          c.mark.column + 1 := by
      omega
    rw [hstop]
    rfl

theorem StandsIn.locationLines_eq (hs : c.StandsIn source.toList) {d : Diagnostic}
    (hd : d.span = c.currentSpan) :
    d.locationLines source = (" --> " ++ d.span.place) ::
      if c.Beyond source then [] else [c.snippet.sourceLine, c.snippet.caretLine] := by
  have hsomewhere : d.span ≠ Span.nowhere := by
    intro hspan
    have hline := congrArg Span.line (hd.symm.trans hspan)
    rw [currentSpan, hs.mark_eq, Mark.past_origin] at hline
    exact absurd hline (Nat.succ_ne_zero _)
  rw [Diagnostic.locationLines, if_neg hsomewhere, hd, hs.ofSource_currentSpan]
  by_cases hbeyond : c.Beyond source
  · simp only [if_pos hbeyond]
  · simp only [if_neg hbeyond]

end Cursor

/-- Wherever moves bring a cursor, the line around it is shown, with one caret under the character
at the cursor. Only behind the last line end of a source there is no line to show. -/
theorem ofSource_walk (source : String) (moves : List Move) :
    let c := (Cursor.walk source moves).here
    Snippet.ofSource source c.currentSpan =
        (if c.Beyond source then .error (.noSuchLine c.mark.line (c.mark.line - 1))
          else .ok c.snippet) ∧
      c.snippet.LaidOut ∧
      ∀ d : Diagnostic, d.span = c.currentSpan → d.locationLines source =
        (" --> " ++ d.span.place) ::
          if c.Beyond source then [] else [c.snippet.sourceLine, c.snippet.caretLine] := by
  intro c
  have hs : c.StandsIn source.toList := (Cursor.all_walk source moves).1
  refine ⟨hs.ofSource_currentSpan, Snippet.laidOut_of_lt ?_ (Nat.lt_succ_self _),
    fun d hd => hs.locationLines_eq hd⟩
  rw [Cursor.snippet, String.toList_ofList]
  exact newline_notMem_firstLine _

/-- A cursor counts a line behind the last line end, and a source has none there. -/
theorem ofSource_walk_behind_last_line :
    ¬ ∀ (source : String) (moves : List Move), ∃ s,
      Snippet.ofSource source (Cursor.walk source moves).here.currentSpan = .ok s := by
  intro h
  obtain ⟨s, hs⟩ := h "a\n" [.go .advance, .go .advance]
  have hend : Snippet.ofSource "a\n"
      (Cursor.walk "a\n" [.go .advance, .go .advance]).here.currentSpan =
        .error (.noSuchLine 2 1) := by
    rfl
  rw [hend] at hs
  contradiction

end ScriptLex
