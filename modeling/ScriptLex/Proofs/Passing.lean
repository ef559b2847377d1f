import ScriptLex.Cursor

/-!
# Passing text

Every movement of a cursor is the passing of a piece of the text ahead. A run
of characters of one class is the longest such piece, and a cursor that stands
in a source keeps its mark in step with the text behind it.
-/

namespace ScriptLex

-- ---------------------------------------------------------------------------
-- Runs of one class
-- ---------------------------------------------------------------------------

/-- `text` is the longest piece of characters satisfying `p` ahead of `rest`. -/
structure IsLongest (p : Char → Bool) (text rest : List Char) : Prop where
  all : ∀ c ∈ text, p c = true
  stops : ∀ c ∈ rest.head?, p c = false

structure IsRun (p : Char → Bool) (text rest : List Char) : Prop extends IsLongest p text rest where
  ne_nil : text ≠ []

theorem isLongest_takeWhile (p : Char → Bool) (cs : List Char) :
    IsLongest p (cs.takeWhile p) (cs.dropWhile p) := by
  constructor
  · exact fun c hc => List.all_eq_true.mp List.all_takeWhile c hc
  · intro c hc
    have h := List.head?_dropWhile_not p cs
    rw [Option.mem_def.mp hc] at h
    simpa using h

theorem isRun_takeWhile {p : Char → Bool} (hp : p c = true) (cs : List Char) :
    IsRun p ((c :: cs).takeWhile p) ((c :: cs).dropWhile p) :=
  ⟨isLongest_takeWhile p (c :: cs), by simp [hp]⟩

theorem IsLongest.takeWhile_rest (h : IsLongest p text rest) : rest.takeWhile p = [] := by
  cases rest with
  | nil => rfl
  | cons c cs => simp [h.stops c (by simp)]

theorem IsLongest.takeWhile_eq (h : IsLongest p text rest) :
    (text ++ rest).takeWhile p = text := by
  rw [List.takeWhile_append_of_pos h.all, h.takeWhile_rest, List.append_nil]

theorem IsLongest.dropWhile_eq (h : IsLongest p text rest) :
    (text ++ rest).dropWhile p = rest := by
  have hsplit := List.takeWhile_append_dropWhile (p := p) (l := text ++ rest)
  rwa [h.takeWhile_eq, List.append_cancel_left_eq] at hsplit

theorem IsLongest.isPrefix (h : IsLongest p text rest) (hpiece : piece <+: text ++ rest)
    (hall : ∀ c ∈ piece, p c = true) : piece <+: text := by
  obtain ⟨more, hmore⟩ := hpiece
  rw [← h.takeWhile_eq, ← hmore, List.takeWhile_append_of_pos hall]
  exact List.prefix_append piece _

theorem IsLongest.unique (h : IsLongest p text rest) (h' : IsLongest p text' rest')
    (he : text ++ rest = text' ++ rest') : text = text' := by
  rw [← h.takeWhile_eq, he, h'.takeWhile_eq]

-- ---------------------------------------------------------------------------
-- Marks
-- ---------------------------------------------------------------------------

theorem byteLength_pos (h : text ≠ []) : 0 < Text.byteLength text := by
  obtain ⟨c, cs, rfl⟩ := List.exists_cons_of_ne_nil h
  have := c.utf8Size_pos
  rw [Text.byteLength_cons]
  omega

/-- Of two beginnings of a text, the one of no more bytes begins the other. -/
theorem isPrefix_of_byteLength_le (hfirst : first <+: text) (hsecond : second <+: text)
    (hle : Text.byteLength first ≤ Text.byteLength second) : first <+: second := by
  rcases List.prefix_or_prefix_of_prefix hfirst hsecond with h | ⟨between, rfl⟩
  · exact h
  · cases between with
    | nil => exact ⟨[], by simp⟩
    | cons c cs =>
      have := byteLength_pos (List.cons_ne_nil c cs)
      rw [Text.byteLength_append] at hle
      omega

namespace Mark

def past (m : Mark) (text : List Char) : Mark := text.foldl Mark.after m

@[simp] theorem past_nil (m : Mark) : m.past [] = m := rfl

@[simp] theorem past_cons (m : Mark) (c : Char) (cs : List Char) :
    m.past (c :: cs) = (m.after c).past cs := rfl

theorem past_append (m : Mark) (xs ys : List Char) : m.past (xs ++ ys) = (m.past xs).past ys :=
  List.foldl_append

@[simp] theorem offset_after (m : Mark) (c : Char) :
    (m.after c).offset = m.offset + c.utf8Size := by
  unfold after
  split <;> rfl

@[simp] theorem offset_past (m : Mark) (text : List Char) :
    (m.past text).offset = m.offset + Text.byteLength text := by
  induction text generalizing m with
  | nil => rfl
  | cons c cs ih => simp [ih, Nat.add_assoc]

theorem column_past_pos {m : Mark} (hm : 0 < m.column) (text : List Char) :
    0 < (m.past text).column := by
  induction text generalizing m with
  | nil => exact hm
  | cons c cs ih =>
    apply ih
    unfold after
    split
    · exact Nat.one_pos
    · exact Nat.succ_pos _

end Mark

-- ---------------------------------------------------------------------------
-- Cursors
-- ---------------------------------------------------------------------------

namespace Cursor

variable {c : Cursor} {ch : Char} {text rest : List Char} {source : List Char}

/-- The cursor behind `text`, which is meant to stand right ahead. -/
def pass (text : List Char) (c : Cursor) : Cursor :=
  ⟨text.reverse ++ c.passed, c.rest.drop text.length, c.mark.past text⟩

@[simp] theorem passed_pass (text : List Char) (c : Cursor) :
    (c.pass text).passed = text.reverse ++ c.passed := rfl

@[simp] theorem mark_pass (text : List Char) (c : Cursor) :
    (c.pass text).mark = c.mark.past text := rfl

theorem rest_pass (h : c.rest = text ++ rest) : (c.pass text).rest = rest := by
  simp [pass, h]

theorem pass_nil (c : Cursor) : c.pass [] = c := rfl

theorem pass_append (xs ys : List Char) (c : Cursor) :
    c.pass (xs ++ ys) = (c.pass xs).pass ys := by
  simp [pass, Mark.past_append]

theorem advance_eq_pass (h : c.rest = ch :: rest) : c.advance = c.pass [ch] := by
  simp [advance, pass, h]

theorem advance_of_end (h : c.rest = []) : c.advance = c := by
  simp [advance, h]

theorem eatWhile_eq_pass (p : Char → Bool) (c : Cursor) :
    c.eatWhile p = c.pass (c.rest.takeWhile p) := by
  fun_induction eatWhile p c with
  | case1 c h => simp [h, pass_nil]
  | case2 c ch rest h hp ih =>
    rw [ih, advance_eq_pass h, rest_pass (by rw [h]; rfl), h, List.takeWhile_cons_of_pos hp]
    exact (pass_append [ch] _ c).symm
  | case3 c ch rest h hp => simp [h, hp, pass_nil]

/-- The cursor is between two halves of `source`, and its mark is that place. -/
structure StandsIn (c : Cursor) (source : List Char) : Prop where
  text_eq : c.passed.reverse ++ c.rest = source
  mark_eq : c.mark = Mark.origin.past c.passed.reverse

theorem standsIn_start (source : String) : (start source).StandsIn source.toList :=
  ⟨rfl, rfl⟩

namespace StandsIn

theorem offset_eq (h : StandsIn c source) : c.mark.offset = Text.byteLength c.passed.reverse := by
  rw [h.mark_eq, Mark.offset_past]
  exact Nat.zero_add _

theorem column_pos (h : StandsIn c source) : 0 < c.mark.column := by
  rw [h.mark_eq]
  exact Mark.column_past_pos Nat.one_pos _

theorem pass (h : StandsIn c source) (hr : c.rest = text ++ rest) :
    (c.pass text).StandsIn source := by
  constructor
  · rw [rest_pass hr, passed_pass, List.reverse_append, List.reverse_reverse, List.append_assoc,
      ← hr]
    exact h.text_eq
  · rw [mark_pass, passed_pass, List.reverse_append, List.reverse_reverse, Mark.past_append,
      ← h.mark_eq]

end StandsIn
end Cursor
end ScriptLex
