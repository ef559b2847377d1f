import ScriptLex.Alphabet

/-!
# Segments between quotes

The quotes of a source cut it into segments, numbered from zero. A place with
an even number of quotes before it lies in an even segment, and
`source_eq_of_segment` and `segment_of_append` go from one view to the other.
-/

namespace ScriptLex

variable {source text rest seg : List Char} {segs : List (List Char)}

def segments (source : List Char) : List (List Char) := source.splitOn '\"'

def closed (segs : List (List Char)) : List Char := segs.flatMap (· ++ ['\"'])

def leading (source : List Char) (k : Nat) : List Char := closed ((segments source).take k)

theorem segments_of_not_mem (h : '\"' ∉ text) : segments text = [text] :=
  List.splitOn_eq_singleton h

theorem segments_append_quote (h : '\"' ∉ text) :
    segments (text ++ '\"' :: rest) = text :: segments rest :=
  List.splitOn_append_cons_self_of_not_mem h rest

theorem segments_append (h : '\"' ∉ text) :
    segments (text ++ rest) = (segments rest).modifyHead (text ++ ·) := by
  induction text with
  | nil =>
    rw [List.nil_append]
    cases segments rest <;> rfl
  | cons c cs ih =>
    rw [List.mem_cons, not_or] at h
    obtain ⟨hc, hcs⟩ := h
    have hc : (c == '\"') = false := by simpa using Ne.symm hc
    rw [segments, List.cons_append, List.splitOn_cons_eq_if_modifyHead, hc]
    rw [if_neg Bool.false_ne_true, ← segments, ih hcs, List.modifyHead_modifyHead]
    rfl

-- ---------------------------------------------------------------------------
-- Closed segments
-- ---------------------------------------------------------------------------

@[simp] theorem closed_nil : closed [] = [] := rfl

@[simp] theorem closed_cons (seg : List Char) (segs : List (List Char)) :
    closed (seg :: segs) = seg ++ '\"' :: closed segs := by
  simp [closed]

theorem closed_append (segs segs' : List (List Char)) :
    closed (segs ++ segs') = closed segs ++ closed segs' :=
  List.flatMap_append

theorem segments_closed_append (h : ∀ seg ∈ segs, '\"' ∉ seg) (rest : List Char) :
    segments (closed segs ++ rest) = segs ++ segments rest := by
  induction segs with
  | nil => rfl
  | cons seg segs ih =>
    obtain ⟨hseg, hsegs⟩ := List.forall_mem_cons.mp h
    rw [closed_cons, List.append_assoc, List.cons_append, segments_append_quote hseg, ih hsegs,
      List.cons_append]

theorem count_closed (h : ∀ seg ∈ segs, '\"' ∉ seg) : (closed segs).count '\"' = segs.length := by
  induction segs with
  | nil => rfl
  | cons seg segs ih =>
    obtain ⟨hseg, hsegs⟩ := List.forall_mem_cons.mp h
    rw [closed_cons, List.count_append, List.count_eq_zero.mpr hseg, List.count_cons_self, ih hsegs,
      List.length_cons, Nat.zero_add]

theorem getLast?_closed (hc : c ∈ (closed segs).getLast?) : c = '\"' := by
  rcases List.eq_nil_or_concat segs with rfl | ⟨segs, seg, rfl⟩
  · simp at hc
  · simpa [List.concat_eq_append, closed_append, eq_comm] using hc

theorem exists_closed_append (cs : List Char) :
    ∃ (segs : List (List Char)) (last : List Char), cs = closed segs ++ last ∧
      (∀ seg ∈ segs, '\"' ∉ seg) ∧ '\"' ∉ last := by
  induction cs with
  | nil => exact ⟨[], [], rfl, by simp, by simp⟩
  | cons c cs ih =>
    obtain ⟨segs, last, rfl, hsegs, hlast⟩ := ih
    by_cases hc : c = '\"'
    · exact ⟨[] :: segs, last, by simp [hc], by simpa using hsegs, hlast⟩
    · cases segs with
      | nil => exact ⟨[], c :: last, rfl, by simp, by simp [Ne.symm hc, hlast]⟩
      | cons seg segs =>
        refine ⟨(c :: seg) :: segs, last, by simp, ?_, hlast⟩
        simpa [Ne.symm hc] using hsegs

theorem length_segments (source : List Char) :
    (segments source).length = source.count '\"' + 1 := by
  obtain ⟨segs, last, rfl, hsegs, hlast⟩ := exists_closed_append source
  rw [segments_closed_append hsegs, segments_of_not_mem hlast, List.count_append,
    count_closed hsegs, List.count_eq_zero.mpr hlast, List.length_append, List.length_singleton,
    Nat.add_zero]

example : segments ['a', '\"', 'b', '\"', '\"'] = [['a'], ['b'], [], []] := by decide

-- ---------------------------------------------------------------------------
-- Places and segments
-- ---------------------------------------------------------------------------

/-- Segment `k` has exactly `k` quotes before it and lies between quotes or ends of the source. -/
theorem source_eq_of_segment (h : (segments source)[k]? = some seg) :
    ∃ trail, source = leading source k ++ seg ++ trail ∧ '\"' ∉ seg ∧
      (leading source k).count '\"' = k ∧ (∀ c ∈ (leading source k).getLast?, c = '\"') ∧
      ∀ c ∈ trail.head?, c = '\"' := by
  obtain ⟨segs, last, rfl, hsegs, hlast⟩ := exists_closed_append source
  have hsplit : segments (closed segs ++ last) = segs ++ [last] := by
    rw [segments_closed_append hsegs, segments_of_not_mem hlast]
  rw [leading, hsplit]
  rw [hsplit] at h
  rcases Nat.lt_or_ge k segs.length with hk | hk
  · obtain rfl : segs[k] = seg := by
      rw [List.getElem?_append_left hk, List.getElem?_eq_getElem hk] at h
      exact Option.some.inj h
    have hsegs' : ∀ seg ∈ segs.take k, '\"' ∉ seg := fun s hs => hsegs s (List.mem_of_mem_take hs)
    rw [List.take_append_of_le_length (Nat.le_of_lt hk)]
    refine ⟨'\"' :: (closed (segs.drop (k + 1)) ++ last), ?_, hsegs _ (List.getElem_mem hk), ?_,
      fun c => getLast?_closed, by simp⟩
    · have hcut : closed segs =
          closed (segs.take k) ++ (segs[k] ++ '\"' :: closed (segs.drop (k + 1))) := by
        rw [← closed_cons, ← List.drop_eq_getElem_cons hk, ← closed_append, List.take_append_drop]
      rw [hcut]
      simp
    · rw [count_closed hsegs', List.length_take, Nat.min_eq_left (Nat.le_of_lt hk)]
  · -- Only the last segment is left.
    rw [List.getElem?_append_right hk, List.getElem?_singleton] at h
    obtain ⟨hzero, rfl⟩ : k - segs.length = 0 ∧ last = seg := by simpa using h
    obtain rfl : k = segs.length := by omega
    rw [List.take_left]
    exact ⟨[], by simp, hlast, count_closed hsegs, fun c => getLast?_closed, by simp⟩

/-- The place behind `before` is in the segment whose number is that of the quotes in `before`. -/
theorem segment_of_append (before rest : List Char) :
    ∃ b a trail, before = leading (before ++ rest) (before.count '\"') ++ b ∧ rest = a ++ trail ∧
      (segments (before ++ rest))[before.count '\"']? = some (b ++ a) ∧
      (∀ c ∈ trail.head?, c = '\"') := by
  obtain ⟨segs, b, rfl, hsegs, hb⟩ := exists_closed_append before
  have hcount : (closed segs ++ b).count '\"' = segs.length := by
    rw [List.count_append, count_closed hsegs, List.count_eq_zero.mpr hb, Nat.add_zero]
  have hfirst : ∃ a trail later, rest = a ++ trail ∧ segments rest = a :: later ∧
      ∀ c ∈ trail.head?, c = '\"' := by
    obtain ⟨segs', last, rfl, hsegs', hlast⟩ := exists_closed_append rest
    rw [segments_closed_append hsegs', segments_of_not_mem hlast]
    cases segs' with
    | nil => exact ⟨last, [], [], by simp, rfl, by simp⟩
    | cons a segs' =>
      exact ⟨a, '\"' :: (closed segs' ++ last), segs' ++ [last], by simp, rfl, by simp⟩
  obtain ⟨a, trail, later, hrest, hsegments, htrail⟩ := hfirst
  have hsplit : segments (closed segs ++ b ++ rest) = segs ++ (b ++ a) :: later := by
    rw [List.append_assoc, segments_closed_append hsegs, segments_append hb, hsegments]
    rfl
  refine ⟨b, a, trail, ?_, hrest, ?_, htrail⟩
  · rw [leading, hcount, hsplit, List.take_left]
  · rw [hcount, hsplit]
    simp

end ScriptLex
