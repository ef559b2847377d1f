import ScriptLex.Proofs.Places
import ScriptLex.Proofs.Tiling

/-!
# Joined spans

Joining two spans of a source gives the range from the earlier start to the
later stop, which lies between characters again and holds all that either of
them holds. Line and column stay those of the first span, so they are right
only if that one starts no later than the other: `join_truthful_iff`.
-/

namespace ScriptLex
namespace Span

variable {source : String} {a b s : Span}

-- ---------------------------------------------------------------------------
-- Truthful spans
-- ---------------------------------------------------------------------------

/-- Both ends lie between characters of the source, in order, and line and column are those of the
start. -/
structure Truthful (s : Span) (source : String) : Prop where
  start_le : s.start ≤ s.stop
  stop_le : s.stop ≤ source.utf8ByteSize
  starts : ∃ before, before <+: source.toList ∧ s.start = Text.byteLength before ∧
    s.line = before.count '\n' + 1 ∧ s.column = (lastLine before).length + 1
  stops : ∃ before, before <+: source.toList ∧ s.stop = Text.byteLength before

theorem truthful_iff :
    s.Truthful source ↔ s.start ≤ s.stop ∧
      (∃ halves ∈ Text.splitAtByte? s.start source.toList,
        s.line = halves.1.count '\n' + 1 ∧ s.column = (lastLine halves.1).length + 1) ∧
      (Text.splitAtByte? s.stop source.toList).isSome = true := by
  constructor
  · rintro ⟨hle, -, ⟨before, ⟨after, htext⟩, hstart, hplace⟩, upTo, ⟨more, htext'⟩, hstop⟩
    have hbefore := Text.splitAtByte?_eq_some_iff.mpr ⟨htext.symm, hstart.symm⟩
    have hupTo := Text.splitAtByte?_eq_some_iff.mpr ⟨htext'.symm, hstop.symm⟩
    exact ⟨hle, ⟨_, hbefore, hplace⟩, Option.isSome_of_eq_some hupTo⟩
  · rintro ⟨hle, ⟨⟨before, after⟩, hbefore, hplace⟩, hsome⟩
    obtain ⟨⟨upTo, more⟩, hupTo⟩ := Option.isSome_iff_exists.mp hsome
    obtain ⟨htext, hstart⟩ := Text.eq_of_splitAtByte? hbefore
    obtain ⟨htext', hstop⟩ := Text.eq_of_splitAtByte? hupTo
    refine ⟨hle, ?_, ⟨before, ⟨after, htext.symm⟩, hstart.symm, hplace⟩,
      upTo, ⟨more, htext'.symm⟩, hstop.symm⟩
    rw [← byteLength_toList, htext', Text.byteLength_append, hstop]
    exact Nat.le_add_right _ _

instance : Decidable (s.Truthful source) := decidable_of_iff' _ truthful_iff

-- ---------------------------------------------------------------------------
-- Joining
-- ---------------------------------------------------------------------------

theorem contains_join (offset : Nat)
    (h : a.contains offset = true ∨ b.contains offset = true) :
    (a.join b).contains offset = true := by
  rw [contains_iff, join]
  rcases h with h | h
  · obtain ⟨hle, hlt⟩ := contains_iff.mp h
    exact ⟨(Nat.min_le_left _ _).trans hle, hlt.trans_le (Nat.le_max_left _ _)⟩
  · obtain ⟨hle, hlt⟩ := contains_iff.mp h
    exact ⟨(Nat.min_le_right _ _).trans hle, hlt.trans_le (Nat.le_max_right _ _)⟩

theorem stops_join (ha : a.Truthful source) (hb : b.Truthful source) :
    ∃ before, before <+: source.toList ∧ (a.join b).stop = Text.byteLength before := by
  rcases Nat.le_total a.stop b.stop with h | h
  · rw [join, Nat.max_eq_right h]
    exact hb.stops
  · rw [join, Nat.max_eq_left h]
    exact ha.stops

theorem starts_join (ha : a.Truthful source) (hb : b.Truthful source) :
    ∃ before, before <+: source.toList ∧ (a.join b).start = Text.byteLength before := by
  obtain ⟨before, hbefore, hstart, -⟩ := ha.starts
  obtain ⟨before', hbefore', hstart', -⟩ := hb.starts
  rcases Nat.le_total a.start b.start with h | h
  · exact ⟨before, hbefore, by rw [join, Nat.min_eq_left h, hstart]⟩
  · exact ⟨before', hbefore', by rw [join, Nat.min_eq_right h, hstart']⟩

theorem exists_covers_join (ha : a.Truthful source) (hb : b.Truthful source) :
    ∃ before text after, (a.join b).Covers source.toList before text after := by
  obtain ⟨before, hbefore, hstart⟩ := starts_join ha hb
  obtain ⟨upTo, hupTo, hstop⟩ := stops_join ha hb
  have hle : (a.join b).start ≤ (a.join b).stop :=
    (Nat.min_le_left _ _).trans (ha.start_le.trans (Nat.le_max_left _ _))
  rw [hstart, hstop] at hle
  obtain ⟨text, rfl⟩ := isPrefix_of_byteLength_le hbefore hupTo hle
  obtain ⟨after, hafter⟩ := hupTo
  exact ⟨before, text, after, hafter.symm, hstart, by rw [hstop, Text.byteLength_append]⟩

theorem truthful_join (ha : a.Truthful source) (hb : b.Truthful source)
    (h : a.start ≤ b.start) : (a.join b).Truthful source := by
  have hstart : (a.join b).start = a.start := Nat.min_eq_left h
  refine ⟨?_, Nat.max_le.mpr ⟨ha.stop_le, hb.stop_le⟩, ?_, stops_join ha hb⟩
  · rw [hstart]
    exact ha.start_le.trans (Nat.le_max_left _ _)
  · rw [hstart]
    exact ha.starts

/-- A truthful span that has the line and column of another one starts where that one does. -/
theorem Truthful.start_eq (ha : a.Truthful source) (hb : b.Truthful source)
    (hline : a.line = b.line) (hcolumn : a.column = b.column) : a.start = b.start := by
  obtain ⟨before, hbefore, hstart, hl, hc⟩ := ha.starts
  obtain ⟨before', hbefore', hstart', hl', hc'⟩ := hb.starts
  rw [hl, hl', Nat.add_right_cancel_iff] at hline
  rw [hc, hc', Nat.add_right_cancel_iff] at hcolumn
  rw [hstart, hstart', eq_of_same_place hbefore hbefore' hline hcolumn]

/-- Joining two truthful spans gives the range from the earlier start to the later stop. It lies
between characters, and contains every offset that one of them contains. It is at the right line
and column exactly when the first span starts no later than the second. -/
theorem join_truthful_iff (ha : a.Truthful source) (hb : b.Truthful source) :
    let j := a.join b
    (j.Truthful source ↔ a.start ≤ b.start) ∧
      j.start = min a.start b.start ∧ j.stop = max a.stop b.stop ∧
      (∀ offset, a.contains offset = true ∨ b.contains offset = true →
        j.contains offset = true) ∧
      ∃ before text after, j.Covers source.toList before text after ∧
        j.slice? source = some (String.ofList text) := by
  intro j
  refine ⟨⟨fun hj => ?_, truthful_join ha hb⟩, rfl, rfl, contains_join, ?_⟩
  · have hstart : j.start = a.start := hj.start_eq ha rfl rfl
    exact hstart ▸ Nat.min_le_right a.start b.start
  · obtain ⟨before, text, after, hcovers⟩ := exists_covers_join ha hb
    exact ⟨before, text, after, hcovers, by rw [slice?, hcovers.slice?_eq]; rfl⟩

theorem join_truthful_iff_overlapping :
    let source := "é\n(\"b\")"
    let a : Span := ⟨4, 7, 2, 2⟩
    let b : Span := ⟨2, 5, 1, 2⟩
    a.Truthful source ∧ b.Truthful source ∧ ¬ (a.join b).Truthful source ∧
      (b.join a).Truthful source ∧ b.join a = ⟨2, 7, 1, 2⟩ := by
  intro source a b
  have ha : a.Truthful source := by decide +kernel
  have hb : b.Truthful source := by decide +kernel
  have hforwards := (join_truthful_iff hb ha).1
  have hbackwards := (join_truthful_iff ha hb).1
  exact ⟨ha, hb, fun h => absurd (hbackwards.mp h) (by decide), hforwards.mpr (by decide), rfl⟩

/-- Joined to an earlier span, a span on the second line keeps its line and starts on the first. -/
theorem not_truthful_join_to_earlier :
    ¬ ∀ (source : String) (a b : Span), a.Truthful source → b.Truthful source →
      (a.join b).Truthful source := by
  intro h
  have hjoin := h "a\nb" ⟨2, 3, 2, 1⟩ ⟨0, 1, 1, 1⟩ (by decide +kernel) (by decide +kernel)
  have hnot : ¬ (join ⟨2, 3, 2, 1⟩ ⟨0, 1, 1, 1⟩).Truthful "a\nb" := by decide +kernel
  exact hnot hjoin

end Span
end ScriptLex
