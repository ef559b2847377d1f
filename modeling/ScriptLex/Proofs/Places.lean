import Mathlib.Data.List.DropRight
import ScriptLex.Proofs.Passing

/-!
# Places in a text

A mark counts bytes, lines and columns as the cursor goes. `past_origin` tells
them from the text before the mark alone, and `past_behind` says how marks move
when more text is put in front of all of it.
-/

namespace ScriptLex

def lastLine (text : List Char) : List Char := text.rtakeWhile (· != '\n')

@[simp] theorem lastLine_concat_newline (text : List Char) : lastLine (text ++ ['\n']) = [] :=
  List.rtakeWhile_concat_neg _ text '\n' (by decide)

theorem lastLine_concat (text : List Char) (hc : c ≠ '\n') :
    lastLine (text ++ [c]) = lastLine text ++ [c] :=
  List.rtakeWhile_concat_pos _ text c (by simpa using hc)

theorem newline_notMem_lastLine (text : List Char) : '\n' ∉ lastLine text := by
  intro h
  have := List.mem_rtakeWhile_imp h
  contradiction

theorem lastLine_append (front : List Char) (h : '\n' ∉ text) :
    lastLine (front ++ text) = lastLine front ++ text := by
  induction text using List.reverseRecOn with
  | nil => simp
  | append_singleton text c ih =>
    rw [List.mem_append, not_or, List.mem_singleton] at h
    rw [← List.append_assoc, lastLine_concat _ (Ne.symm h.2), ih h.1, List.append_assoc]

theorem eq_nil_of_same_place (hline : (front ++ text).count '\n' = front.count '\n')
    (hcolumn : (lastLine (front ++ text)).length = (lastLine front).length) : text = [] := by
  have hnone : '\n' ∉ text := by
    rw [List.count_append] at hline
    exact List.count_eq_zero.mp (by omega)
  rw [lastLine_append front hnone, List.length_append] at hcolumn
  exact List.length_eq_zero_iff.mp (by omega)

/-- Line and column tell a place in a text. -/
theorem eq_of_same_place (hfirst : first <+: text) (hsecond : second <+: text)
    (hline : first.count '\n' = second.count '\n')
    (hcolumn : (lastLine first).length = (lastLine second).length) : first = second := by
  rcases List.prefix_or_prefix_of_prefix hfirst hsecond with ⟨between, rfl⟩ | ⟨between, rfl⟩
  · rw [eq_nil_of_same_place hline.symm hcolumn.symm, List.append_nil]
  · rw [eq_nil_of_same_place hline hcolumn, List.append_nil]

namespace Mark

theorem past_origin (before : List Char) :
    origin.past before =
      ⟨Text.byteLength before, before.count '\n' + 1, (lastLine before).length + 1⟩ := by
  induction before using List.reverseRecOn with
  | nil => rfl
  | append_singleton before c ih =>
    rw [past_append, ih]
    by_cases hc : c = '\n'
    · subst hc
      simp [after]
    · simp [after, hc, lastLine_concat]

/-- The mark when `front` is put before the text. Only the first line gets longer by it. -/
def behind (front : List Char) (m : Mark) : Mark :=
  ⟨m.offset + Text.byteLength front, m.line + front.count '\n',
    if m.line = 1 then m.column + (lastLine front).length else m.column⟩

theorem after_behind (front : List Char) {m : Mark} (hm : 0 < m.line) (c : Char) :
    (m.behind front).after c = (m.after c).behind front := by
  by_cases hc : c = '\n'
  · simp [after, behind, hc]
    omega
  · by_cases hl : m.line = 1
    · simp [after, behind, hc, hl]
      omega
    · simp [after, behind, hc, hl]
      omega

theorem line_after_pos {m : Mark} (hm : 0 < m.line) (c : Char) : 0 < (m.after c).line := by
  unfold after
  split
  · exact Nat.succ_pos _
  · exact hm

theorem line_past_pos {m : Mark} (hm : 0 < m.line) (text : List Char) :
    0 < (m.past text).line := by
  induction text generalizing m with
  | nil => exact hm
  | cons c cs ih => exact ih (line_after_pos hm c)

theorem past_behind (front : List Char) {m : Mark} (hm : 0 < m.line) (text : List Char) :
    (m.behind front).past text = (m.past text).behind front := by
  induction text generalizing m with
  | nil => rfl
  | cons c cs ih => rw [past_cons, past_cons, after_behind front hm, ih (line_after_pos hm c)]

theorem past_origin_eq_behind (front : List Char) : origin.past front = origin.behind front := by
  rw [past_origin]
  simp [behind, origin, Nat.add_comm]

end Mark
end ScriptLex
