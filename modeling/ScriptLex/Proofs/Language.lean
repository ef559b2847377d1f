import ScriptLex.Proofs.Piece
import ScriptLex.Proofs.Segments

/-!
# The strict language

What strict mode accepts, told by the segments of a source alone: every quote
has a partner, and the even segments are clean. `violates_iff` restates the
violations for a place between two halves of the source, which is how a scanner
meets them.
-/

namespace ScriptLex

-- ---------------------------------------------------------------------------
-- Sources without violations
-- ---------------------------------------------------------------------------

/-- `digits` between `before` and `after` is a run of digits that cannot be extended. -/
structure IsWholeRun (before digits after : List Char) : Prop
    extends IsRun Char.isDigit digits after where
  starts : ∀ c ∈ before.getLast?, c.isDigit = false

structure Clean (seg : List Char) : Prop where
  inAlphabet : ∀ c ∈ seg, inAlphabet c = true
  noDoubledEqual : ¬ ['=', '='] <:+: seg
  numbersFit : ∀ before digits after, seg = before ++ digits ++ after →
    IsWholeRun before digits after → Numeral.denoted digits < UInt64.size

structure InLanguage (source : List Char) : Prop where
  paired : (segments source).length % 2 = 1
  clean : ∀ k seg, (segments source)[2 * k]? = some seg → Clean seg

-- ---------------------------------------------------------------------------
-- Violations
-- ---------------------------------------------------------------------------

inductive Violation where
  /-- A character outside the alphabet, or an `=` directly behind another. -/
  | unexpected (ch : Char)
  | tooLarge (digits : List Char)
  /-- The last quote of an odd number of quotes. -/
  | unpaired
deriving DecidableEq, Repr

/-- A violation starts at this byte offset of the source. -/
inductive Violates (source : List Char) : Nat → Violation → Prop where
  | unexpected (hseg : (segments source)[2 * k]? = some (before ++ ch :: after))
      (h : inAlphabet ch = false ∨ ch = '=' ∧ before.getLast? = some '=') :
      Violates source (Text.byteLength (leading source (2 * k) ++ before)) (.unexpected ch)
  | tooLarge (hseg : (segments source)[2 * k]? = some (before ++ digits ++ after))
      (hrun : IsWholeRun before digits after) (hbig : UInt64.size ≤ Numeral.denoted digits) :
      Violates source (Text.byteLength (leading source (2 * k) ++ before)) (.tooLarge digits)
  | unpaired (hseg : (segments source)[2 * k]? = some seg)
      (hlast : (segments source).length = 2 * k + 2) :
      Violates source (Text.byteLength (leading source (2 * k) ++ seg)) .unpaired

/-- The language is what has no violations. -/
theorem inLanguage_iff : InLanguage source ↔ ∀ start v, ¬ Violates source start v := by
  constructor
  · rintro ⟨hpaired, hclean⟩ start v hv
    cases hv with
    | @unexpected k before ch after hseg h =>
      obtain ⟨halphabet, hdoubled, -⟩ := hclean _ _ hseg
      rcases h with h | ⟨rfl, hbefore⟩
      · rw [halphabet _ (by simp)] at h
        contradiction
      · obtain ⟨before, rfl⟩ := List.getLast?_eq_some_iff.mp hbefore
        exact hdoubled ⟨before, after, by simp⟩
    | tooLarge hseg hrun hbig =>
      exact absurd ((hclean _ _ hseg).numbersFit _ _ _ rfl hrun) (by omega)
    | unpaired hseg hlast => omega
  · intro h
    constructor
    · -- With an odd number of quotes there is a last one, between the last two segments.
      refine (Nat.mod_two_eq_zero_or_one _).resolve_left fun heven => ?_
      have hlength := length_segments source
      obtain ⟨k, hk⟩ : ∃ k, (segments source).length = 2 * k + 2 := by
        exact ⟨(segments source).length / 2 - 1, by omega⟩
      have hin : 2 * k < (segments source).length := by omega
      exact h _ _ (.unpaired (List.getElem?_eq_getElem hin) hk)
    · intro k seg hseg
      refine ⟨fun c hc => ?_, ?_, ?_⟩
      · obtain ⟨before, after, rfl⟩ := List.append_of_mem hc
        refine eq_true_of_ne_false fun hout => ?_
        exact h _ _ (.unexpected hseg (.inl hout))
      · rintro ⟨before, after, rfl⟩
        have hseg : (segments source)[2 * k]? = some ((before ++ ['=']) ++ '=' :: after) := by
          simpa using hseg
        exact h _ _ (.unexpected hseg (.inr ⟨rfl, by simp⟩))
      · rintro before digits after rfl hrun
        refine Nat.lt_of_not_le fun hbig => ?_
        exact h _ _ (.tooLarge hseg hrun hbig)

-- ---------------------------------------------------------------------------
-- Violations at a place
-- ---------------------------------------------------------------------------

/-- Outside strings, a violation starts between `before` and `rest`. -/
def Faulty (before rest : List Char) : Violation → Prop
  | .unexpected ch =>
    rest.head? = some ch ∧ (isForeign ch = true ∨ ch = '=' ∧ before.getLast? = some '=')
  | .tooLarge digits =>
    ∃ after, rest = digits ++ after ∧ IsWholeRun before digits after ∧
      UInt64.size ≤ Numeral.denoted digits
  | .unpaired => ∃ text, rest = '\"' :: text ∧ '\"' ∉ text

def Outside (before : List Char) : Prop := before.count '\"' % 2 = 0

/-- The violation starts just behind `before`, where the source has it outside strings. -/
structure FaultyAt (source before : List Char) (v : Violation) : Prop where
  outside : Outside before
  faulty : ∃ rest, source = before ++ rest ∧ Faulty before rest v

theorem Outside.leading_append {k : Nat} (hk : (leading source (2 * k)).count '\"' = 2 * k)
    (h : '\"' ∉ before) : Outside (leading source (2 * k) ++ before) := by
  rw [Outside, List.count_append, hk, List.count_eq_zero.mpr h, Nat.add_zero]
  exact Nat.mul_mod_right 2 k

theorem IsWholeRun.extend (h : IsWholeRun before digits after)
    (hlead : ∀ c ∈ lead.getLast?, c = '\"') (htrail : ∀ c ∈ trail.head?, c = '\"') :
    IsWholeRun (lead ++ before) digits (after ++ trail) := by
  refine ⟨⟨⟨h.all, fun c hc => ?_⟩, h.ne_nil⟩, fun c hc => ?_⟩
  · rcases after with _ | ⟨d, after⟩
    · exact htrail c hc ▸ rfl
    · exact h.stops c hc
  · rcases List.eq_nil_or_concat before with rfl | ⟨before, d, rfl⟩
    · exact hlead c (by simpa using hc) ▸ rfl
    · exact h.starts c (by simpa [List.concat_eq_append] using hc)

theorem IsWholeRun.restrict (h : IsWholeRun (lead ++ before) digits after)
    (hrest : seg ++ trail = digits ++ after) (htrail : ∀ c ∈ trail.head?, c = '\"') :
    ∃ tail, seg = digits ++ tail ∧ IsWholeRun before digits tail := by
  have hstarts : ∀ c ∈ before.getLast?, c.isDigit = false := by
    intro c hc
    apply h.starts c
    rw [List.getLast?_append, Option.mem_def.mp hc]
    rfl
  rcases List.append_eq_append_iff.mp hrest with ⟨more, hmore, htrail'⟩ | ⟨tail, hseg, rfl⟩
  · cases more with
    | nil =>
      rw [List.append_nil] at hmore
      exact ⟨[], by rw [List.append_nil, hmore], ⟨⟨h.all, by simp⟩, h.ne_nil⟩, hstarts⟩
    | cons c more =>
      -- The run would go on behind the quote that ends the segment.
      obtain rfl : c = '\"' := htrail c (by rw [htrail']; rfl)
      exact absurd (h.all '\"' (by simp [hmore])) (by decide)
  · refine ⟨tail, hseg, ⟨⟨h.all, fun c hc => h.stops c ?_⟩, h.ne_nil⟩, hstarts⟩
    rw [List.head?_append, Option.mem_def.mp hc]
    rfl

theorem FaultyAt.of_violates (h : Violates source start v) :
    ∃ before, start = Text.byteLength before ∧ FaultyAt source before v := by
  cases h with
  | @unexpected k before ch after hseg h =>
    obtain ⟨trail, hsource, hquote, hk, -, -⟩ := source_eq_of_segment hseg
    simp only [List.mem_append, List.mem_cons, not_or] at hquote
    refine ⟨_, rfl, .leading_append hk hquote.1, ch :: after ++ trail, by simpa using hsource, rfl,
      ?_⟩
    rcases h with h | ⟨rfl, h⟩
    · exact .inl (by simp [isForeign, h, Ne.symm hquote.2.1])
    · exact .inr ⟨rfl, by simp [List.getLast?_append, h]⟩
  | @tooLarge k before digits after hseg hrun hbig =>
    obtain ⟨trail, hsource, hquote, hk, hlead, htrail⟩ := source_eq_of_segment hseg
    simp only [List.mem_append, not_or] at hquote
    exact ⟨_, rfl, .leading_append hk hquote.1.1, digits ++ (after ++ trail),
      by simpa using hsource, after ++ trail, rfl, hrun.extend hlead htrail, hbig⟩
  | @unpaired k seg hseg hlast =>
    obtain ⟨trail, hsource, hquote, hk, -, htrail⟩ := source_eq_of_segment hseg
    have hone : trail.count '\"' = 1 := by
      have hlength := length_segments source
      rw [hsource, List.count_append, List.count_append, hk, List.count_eq_zero.mpr hquote,
        ← hsource] at hlength
      omega
    obtain ⟨text, rfl⟩ : ∃ text, trail = '\"' :: text := by
      cases trail with
      | nil => simp at hone
      | cons c text => exact ⟨text, by rw [htrail c rfl]⟩
    rw [List.count_cons_self, Nat.add_eq_right, List.count_eq_zero] at hone
    exact ⟨_, rfl, .leading_append hk hquote, '\"' :: text, hsource, text, rfl, hone⟩

theorem Faulty.violates (hout : Outside before) (h : Faulty before rest v) :
    Violates (before ++ rest) (Text.byteLength before) v := by
  obtain ⟨k, hk⟩ : ∃ k, before.count '\"' = 2 * k := ⟨before.count '\"' / 2, by
    unfold Outside at hout
    omega⟩
  obtain ⟨b, a, trail, hbefore, hrest, hseg, htrail⟩ := segment_of_append before rest
  rw [hk] at hbefore hseg
  obtain ⟨-, -, hquote, -, hlead, -⟩ := source_eq_of_segment hseg
  have hstart : Text.byteLength before =
      Text.byteLength (leading (before ++ rest) (2 * k) ++ b) := by rw [← hbefore]
  rw [hstart]
  cases v with
  | unexpected ch =>
    obtain ⟨hhead, h⟩ := h
    have hch : ch ≠ '\"' := by
      rcases h with h | ⟨rfl, -⟩
      · exact (class_of_isForeign h).2.2.1
      · decide
    -- A segment that ends here would have a quote behind it.
    cases a with
    | nil => exact absurd (htrail ch (by simpa [hrest] using hhead)) hch
    | cons c a =>
      obtain rfl : c = ch := by simpa [hrest] using hhead
      refine .unexpected hseg (h.imp (fun h => ?_) fun ⟨he, hlast⟩ => ⟨he, ?_⟩)
      · simpa [isForeign, hch] using h
      · rw [hbefore, List.getLast?_append] at hlast
        rcases Option.or_eq_some_iff.mp hlast with h | ⟨-, h⟩
        · exact h
        · exact absurd (hlead '=' h) (by decide)
  | tooLarge digits =>
    obtain ⟨after, hdigits, hrun, hbig⟩ := h
    obtain ⟨tail, rfl, hrun⟩ := (hbefore ▸ hrun).restrict (hrest.symm.trans hdigits) htrail
    rw [← List.append_assoc] at hseg
    exact .tooLarge hseg hrun hbig
  | unpaired =>
    obtain ⟨text, hq, htext⟩ := h
    cases a with
    | cons c a =>
      obtain rfl : c = '\"' := by
        rw [hrest] at hq
        exact (List.cons.inj hq).1
      simp at hquote
    | nil =>
      rw [List.append_nil] at hseg
      refine .unpaired hseg ?_
      rw [length_segments, List.count_append, hk, hq, List.count_cons_self,
        List.count_eq_zero.mpr htext]

theorem violates_iff :
    Violates source start v ↔
      ∃ before, start = Text.byteLength before ∧ FaultyAt source before v := by
  refine ⟨FaultyAt.of_violates, ?_⟩
  rintro ⟨before, rfl, hout, rest, rfl, h⟩
  exact h.violates hout

end ScriptLex
