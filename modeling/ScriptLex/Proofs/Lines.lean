import ScriptLex.Proofs.Places
import ScriptLex.Text.Lines

/-!
# Lines of a text

`firstLine` is the text up to the first line end. The lines that reports choose
from are found with it alone: the line with the number of a place is what
stands before the place on its line, with the first line of the rest. Lines
have numbers (`IsLine`) up to `lineCount`, which leaves out the place behind a
line end that ends the text.
-/

namespace ScriptLex

def dropReturn (line : List Char) : List Char :=
  if line.getLast? = some '\r' then line.dropLast else line

def firstLine (text : List Char) : List Char :=
  if '\n' ∈ text then dropReturn (text.takeWhile (· != '\n')) else text

variable {line text rest : List Char}

-- ---------------------------------------------------------------------------
-- First lines
-- ---------------------------------------------------------------------------

theorem firstLine_of_notMem (h : '\n' ∉ text) : firstLine text = text := if_neg h

theorem firstLine_newline (h : '\n' ∉ line) :
    firstLine (line ++ '\n' :: rest) = dropReturn line := by
  have hline : ∀ c ∈ line, (c != '\n') = true := fun c hc => by
    rw [bne_iff_ne]
    rintro rfl
    exact h hc
  rw [firstLine, if_pos (by simp), List.takeWhile_append_of_pos hline]
  simp

theorem dropReturn_isPrefix (line : List Char) : dropReturn line <+: line := by
  unfold dropReturn
  split
  · exact List.dropLast_prefix line
  · exact List.prefix_refl line

theorem dropReturn_append (h : text.getLast? ≠ some '\r') :
    dropReturn (text ++ line) = text ++ dropReturn line := by
  cases line with
  | nil => simp [dropReturn, h]
  | cons c cs =>
    have hlast : (text ++ c :: cs).getLast? = (c :: cs).getLast? :=
      List.getLast?_append_of_ne_nil text (List.cons_ne_nil c cs)
    unfold dropReturn
    rw [hlast]
    split
    · rw [List.dropLast_append_of_ne_nil (List.cons_ne_nil c cs)]
    · rfl

theorem firstLine_append (h : '\n' ∉ text) (hr : text.getLast? ≠ some '\r') (rest : List Char) :
    firstLine (text ++ rest) = text ++ firstLine rest := by
  by_cases hmem : '\n' ∈ rest
  · obtain ⟨line, more, rfl, hline⟩ := List.eq_append_cons_of_mem hmem
    have hall : '\n' ∉ text ++ line := by simp [h, hline]
    rw [← List.append_assoc, firstLine_newline hall, firstLine_newline hline, dropReturn_append hr]
  · rw [firstLine_of_notMem hmem, firstLine_of_notMem (by simp [h, hmem])]

theorem firstLine_cons (hc : c ≠ '\n') (hr : c ≠ '\r') (cs : List Char) :
    firstLine (c :: cs) = c :: firstLine cs := by
  have hc : '\n' ∉ [c] := by simpa using Ne.symm hc
  exact firstLine_append hc (by simpa using hr) cs

theorem firstLine_isPrefix (text : List Char) : firstLine text <+: text := by
  by_cases h : '\n' ∈ text
  · obtain ⟨line, rest, rfl, hline⟩ := List.eq_append_cons_of_mem h
    rw [firstLine_newline hline]
    exact (dropReturn_isPrefix line).trans (List.prefix_append line _)
  · exact (firstLine_of_notMem h).symm ▸ List.prefix_refl text

theorem newline_notMem_firstLine (text : List Char) : '\n' ∉ firstLine text := by
  by_cases h : '\n' ∈ text
  · obtain ⟨line, rest, rfl, hline⟩ := List.eq_append_cons_of_mem h
    rw [firstLine_newline hline]
    exact fun hmem => hline ((dropReturn_isPrefix line).subset hmem)
  · rwa [firstLine_of_notMem h]

-- ---------------------------------------------------------------------------
-- Last lines
-- ---------------------------------------------------------------------------

theorem lastLine_of_notMem (h : '\n' ∉ text) : lastLine text = text := by
  refine List.rtakeWhile_eq_self_iff.mpr fun c hc => ?_
  rw [bne_iff_ne]
  rintro rfl
  exact h hc

theorem lastLine_newline (line rest : List Char) :
    lastLine (line ++ '\n' :: rest) = lastLine rest := by
  induction rest using List.reverseRecOn with
  | nil => exact lastLine_concat_newline line
  | append_singleton rest c ih =>
    rw [← List.cons_append, ← List.append_assoc]
    by_cases hc : c = '\n'
    · rw [hc, lastLine_concat_newline, lastLine_concat_newline]
    · rw [lastLine_concat _ hc, lastLine_concat _ hc, ih]

-- ---------------------------------------------------------------------------
-- All lines
-- ---------------------------------------------------------------------------

namespace Text

theorem lines_cons (hc : c ≠ '\n') (hcs : c = '\r' → cs.head? ≠ some '\n')
    (h : lines cs = line :: more) : lines (c :: cs) = (c :: line) :: more := by
  rw [lines]
  · rw [h]
  · exact hc
  · rintro cs' rfl rfl
    exact hcs rfl rfl

theorem lines_newline (h : '\n' ∉ line) (rest : List Char) :
    lines (line ++ '\n' :: rest) = dropReturn line :: lines rest := by
  induction line with
  | nil => simp [lines, dropReturn]
  | cons c cs ih =>
    obtain ⟨hc, hcs⟩ := List.ne_and_not_mem_of_not_mem_cons h
    have hlater := ih hcs
    cases cs with
    | nil =>
      by_cases hr : c = '\r'
      · simp [hr, lines, dropReturn]
      · simpa [dropReturn, hr] using lines_cons (Ne.symm hc) (absurd · hr) hlater
    | cons d ds =>
      have hd : d ≠ '\n' := fun h => hcs (h ▸ List.mem_cons_self)
      have hdrop : dropReturn (c :: d :: ds) = c :: dropReturn (d :: ds) := by
        unfold dropReturn
        rw [List.getLast?_cons_cons]
        split <;> rfl
      rw [hdrop]
      exact lines_cons (Ne.symm hc) (fun _ => by simpa using hd) hlater

theorem lines_of_notMem (h : '\n' ∉ text) (hne : text ≠ []) : lines text = [text] := by
  induction text with
  | nil => contradiction
  | cons c cs ih =>
    obtain ⟨hc, hcs⟩ := List.ne_and_not_mem_of_not_mem_cons h
    cases cs with
    | nil => simp [lines, Ne.symm hc]
    | cons d ds =>
      have hd : d ≠ '\n' := fun h => hcs (h ▸ List.mem_cons_self)
      exact lines_cons (Ne.symm hc) (fun _ => by simpa using hd) (ih hcs (List.cons_ne_nil d ds))

theorem head?_lines (hne : text ≠ []) : (lines text).head? = some (firstLine text) := by
  by_cases h : '\n' ∈ text
  · obtain ⟨line, rest, rfl, hline⟩ := List.eq_append_cons_of_mem h
    rw [lines_newline hline, firstLine_newline hline, List.head?_cons]
  · rw [lines_of_notMem h hne, firstLine_of_notMem h, List.head?_cons]

theorem getElem?_lines (before : List Char) (hne : rest ≠ []) :
    (lines (before ++ rest))[before.count '\n']? = some (firstLine (lastLine before ++ rest)) := by
  -- The lines ahead of the place are taken off one by one.
  induction hn : before.count '\n' generalizing before with
  | zero =>
    have h : '\n' ∉ before := List.count_eq_zero.mp hn
    rw [lastLine_of_notMem h, ← List.head?_eq_getElem?]
    exact head?_lines (List.append_ne_nil_of_right_ne_nil before hne)
  | succ n ih =>
    have h : '\n' ∈ before := List.count_pos_iff.mp (hn ▸ Nat.succ_pos n)
    obtain ⟨line, more, rfl, hline⟩ := List.eq_append_cons_of_mem h
    have hmore : more.count '\n' = n := by
      simpa [List.count_eq_zero.mpr hline] using hn
    rw [lastLine_newline, List.append_assoc, List.cons_append, lines_newline hline,
      List.getElem?_cons_succ]
    exact ih more hmore

-- ---------------------------------------------------------------------------
-- Lines by their numbers
-- ---------------------------------------------------------------------------

def lineCount (text : List Char) : Nat :=
  text.count '\n' + if lastLine text = [] then 0 else 1

/-- Line `n` starts behind `n - 1` line ends, right behind the last of them, and goes on up to the
next. There is none where the text ends. -/
def IsLine (text : List Char) (n : Nat) (line : List Char) : Prop :=
  ∃ before rest, text = before ++ rest ∧ rest ≠ [] ∧ lastLine before = [] ∧
    n = before.count '\n' + 1 ∧ line = firstLine rest

theorem length_lines (text : List Char) : (lines text).length = lineCount text := by
  induction hn : text.count '\n' generalizing text with
  | zero =>
    have h : '\n' ∉ text := List.count_eq_zero.mp hn
    rw [lineCount, hn, lastLine_of_notMem h]
    by_cases hne : text = []
    · rw [if_pos hne, hne]
      rfl
    · rw [if_neg hne, lines_of_notMem h hne]
      rfl
  | succ n ih =>
    have h : '\n' ∈ text := List.count_pos_iff.mp (hn ▸ Nat.succ_pos n)
    obtain ⟨line, more, rfl, hline⟩ := List.eq_append_cons_of_mem h
    have hmore : more.count '\n' = n := by
      simpa [List.count_eq_zero.mpr hline] using hn
    rw [lines_newline hline, List.length_cons, ih more hmore, lineCount, lineCount, hn, hmore,
      lastLine_newline]
    omega

theorem isLine_of_getElem? {i : Nat} (h : (lines text)[i]? = some line) :
    IsLine text (i + 1) line := by
  induction i generalizing text with
  | zero =>
    have hne : text ≠ [] := by
      rintro rfl
      contradiction
    rw [← List.head?_eq_getElem?, head?_lines hne] at h
    exact ⟨[], text, rfl, hne, rfl, rfl, (Option.some.inj h).symm⟩
  | succ i ih =>
    have hmem : '\n' ∈ text := by
      by_contra hnot
      have hlength := (List.getElem?_eq_some_iff.mp h).1
      rw [length_lines, lineCount, List.count_eq_zero.mpr hnot] at hlength
      split at hlength <;> omega
    obtain ⟨first, more, rfl, hfirst⟩ := List.eq_append_cons_of_mem hmem
    rw [lines_newline hfirst, List.getElem?_cons_succ] at h
    obtain ⟨before, rest, rfl, hne, hbefore, hcount, hline⟩ := ih h
    refine ⟨first ++ '\n' :: before, rest, ?_, hne, ?_, ?_, hline⟩
    · rw [List.append_assoc, List.cons_append]
    · rw [lastLine_newline, hbefore]
    · rw [hcount, List.count_append, List.count_eq_zero.mpr hfirst, List.count_cons_self]
      omega

theorem isLine_succ_iff {i : Nat} : IsLine text (i + 1) line ↔ (lines text)[i]? = some line := by
  refine ⟨fun h => ?_, isLine_of_getElem?⟩
  obtain ⟨before, rest, rfl, hne, hbefore, hi, rfl⟩ := h
  rw [Nat.succ.inj hi, getElem?_lines before hne, hbefore, List.nil_append]

/-- Where a text ends it has no line if it ends in a line end, and else the last one. -/
theorem getElem?_lines_end (hne : text ≠ []) :
    (lines text)[text.count '\n']? =
      if text.getLast? = some '\n' then none else some (lastLine text) := by
  obtain ⟨before, c, rfl⟩ := (List.eq_nil_or_concat' text).resolve_left hne
  rw [List.getLast?_concat]
  by_cases hc : c = '\n'
  · rw [hc, if_pos rfl, List.getElem?_eq_none_iff, length_lines, lineCount, lastLine_concat_newline,
      if_pos rfl]
    exact Nat.le_refl _
  · have hone : '\n' ∉ lastLine before ++ [c] := by
      simp [newline_notMem_lastLine, Ne.symm hc]
    have hcount : (before ++ [c]).count '\n' = before.count '\n' := by
      simp [hc]
    rw [if_neg (by simpa using hc), hcount, getElem?_lines before (List.cons_ne_nil c []),
      firstLine_of_notMem hone, lastLine_concat before hc]

end Text
end ScriptLex
