import ScriptLex.Proofs.Calls
import ScriptLex.Proofs.Language

/-!
# Strict mode accepts its language

Between the calls of a strict run the scanner is outside strings and not within
a run of digits. From such a place, a call without an error passes no place
where a violation starts, and an error is a violation right there.
-/

namespace ScriptLex

variable {before rest source : List Char} {p : Piece} {v w : Violation}

def LexError.violation? : LexError → Option (Nat × Violation)
  | emptyInput => none
  | unexpectedCharacter ch span => some (span.start, .unexpected ch)
  | unterminatedString span => some (span.start, .unpaired)
  | integerOverflow digits span => some (span.start, .tooLarge digits.toList)

def Token.stringText? : Token → Option String
  | .string text => some text
  | .fixed _ | .ident _ | .number _ => none

-- ---------------------------------------------------------------------------
-- Where violations start
-- ---------------------------------------------------------------------------

/-- Characters at which no violation can start. -/
structure IsPlain (c : Char) : Prop where
  inAlphabet : inAlphabet c = true
  ne_equal : c ≠ '='
  not_digit : c.isDigit = false

theorem IsPlain.ne_quote (h : IsPlain c) : c ≠ '\"' := by
  rintro rfl
  exact absurd h.inAlphabet (by decide)

theorem isPlain_of_punctuation (h : c ∈ punctuation) : IsPlain c := by
  obtain ⟨he, -, hd, -⟩ := class_of_punctuation h
  exact ⟨by simp [inAlphabet, h], he, hd⟩

theorem isPlain_of_isBlank (h : isBlank c = true) : IsPlain c := by
  obtain ⟨-, he, -, hd, -⟩ := class_of_isBlank h
  exact ⟨by simp [inAlphabet, h], he, hd⟩

theorem isPlain_of_isAlpha {c : Char} (h : c.isAlpha = true) : IsPlain c := by
  obtain ⟨-, he, -, hd⟩ := class_of_isAlpha h
  exact ⟨by simp [inAlphabet, h], he, hd⟩

theorem Faulty.cons (h : Faulty before (c :: rest) v) :
    v = .unexpected c ∧ (isForeign c = true ∨ c = '=' ∧ before.getLast? = some '=') ∨
      (∃ digits after, v = .tooLarge digits ∧ c.isDigit = true ∧ c :: rest = digits ++ after ∧
        IsWholeRun before digits after ∧ UInt64.size ≤ Numeral.denoted digits) ∨
      v = .unpaired ∧ c = '\"' ∧ '\"' ∉ rest := by
  cases v with
  | unexpected ch =>
    obtain ⟨hhead, h⟩ := h
    obtain rfl : c = ch := by simpa using hhead
    exact .inl ⟨rfl, h⟩
  | tooLarge digits =>
    obtain ⟨after, hrest, hrun, hbig⟩ := h
    obtain ⟨d, ds, rfl⟩ := List.exists_cons_of_ne_nil hrun.ne_nil
    obtain rfl : c = d := (List.cons.inj hrest).1
    exact .inr (.inl ⟨_, after, rfl, hrun.all c List.mem_cons_self, hrest, hrun, hbig⟩)
  | unpaired =>
    obtain ⟨text, hrest, htext⟩ := h
    obtain ⟨rfl, rfl⟩ := List.cons.inj hrest
    exact .inr (.inr ⟨rfl, rfl, htext⟩)

theorem Faulty.rest_ne_nil (h : Faulty before rest v) : rest ≠ [] := by
  rintro rfl
  cases v with
  | unexpected => simp [Faulty] at h
  | tooLarge digits =>
    obtain ⟨after, hrest, hrun, -⟩ := h
    exact hrun.ne_nil (List.append_eq_nil_iff.mp hrest.symm).1
  | unpaired => simp [Faulty] at h

theorem Faulty.unique (h : Faulty before rest v) (h' : Faulty before rest w) : v = w := by
  obtain ⟨c, cs, rfl⟩ := List.exists_cons_of_ne_nil h.rest_ne_nil
  have hclash :
      ¬ (c.isDigit = true ∧ (isForeign c = true ∨ c = '=' ∧ before.getLast? = some '=')) := by
    rintro ⟨hd, hc | ⟨rfl, -⟩⟩
    · exact absurd (class_of_isForeign hc).2.2.2.1 (by simp [hd])
    · exact absurd hd (by decide)
  rcases h.cons with ⟨rfl, hc⟩ | ⟨ds, after, rfl, hd, hrest, hrun, -⟩ | ⟨rfl, rfl, hq⟩ <;>
    rcases h'.cons with ⟨rfl, hc'⟩ | ⟨ds', after', rfl, hd', hrest', hrun', -⟩ | ⟨rfl, hc', hq'⟩
  · rfl
  · exact absurd ⟨hd', hc⟩ hclash
  · subst hc'
    exact absurd hc (by simp [isForeign])
  · exact absurd ⟨hd, hc'⟩ hclash
  · rw [hrun.toIsLongest.unique hrun'.toIsLongest (hrest.symm.trans hrest')]
  · subst hc'
    exact absurd hd (by decide)
  · exact absurd hc' (by simp [isForeign])
  · exact absurd hd' (by decide)
  · rfl

theorem IsPlain.not_faulty (hc : IsPlain c) : ¬ Faulty before (c :: rest) v := by
  intro h
  rcases h.cons with ⟨-, hforeign | ⟨he, -⟩⟩ | ⟨-, -, -, hd, -⟩ | ⟨-, hq, -⟩
  · simp [isForeign, hc.inAlphabet] at hforeign
  · exact hc.ne_equal he
  · simp [hc.not_digit] at hd
  · exact hc.ne_quote hq

-- ---------------------------------------------------------------------------
-- Pieces
-- ---------------------------------------------------------------------------

/-- Outside strings and not within a run of digits. -/
structure Between (before rest : List Char) : Prop where
  outside : Outside before
  not_in_run : ∀ c ∈ before.getLast?, c.isDigit = true → ∀ d ∈ rest.head?, d.isDigit = false

namespace Piece

def IsPlain : Piece → Prop
  | blanks _ | symbol _ | word _ => True
  | equals | number _ | string _ | openString _ | looseQuote | foreign _ => False

theorem isPlain_of_mem (hp : p.IsPlain) (hf : p.Fits strict rest) (hc : c ∈ p.text) :
    ScriptLex.IsPlain c := by
  cases p with
  | blanks text => exact isPlain_of_isBlank (hf.all c hc)
  | word letters => exact isPlain_of_isAlpha (hf.all c hc)
  | symbol f =>
    obtain ⟨d, hd⟩ := hf
    obtain ⟨hmem, htext⟩ := mem_punctuation_of_ofPunctuation? hd
    obtain rfl : c = d := by simpa [text, htext] using hc
    exact isPlain_of_punctuation hmem
  | _ => exact hp.elim

theorem faulty_of_error (hf : p.Fits true rest) (hb : Between before (p.text ++ rest))
    (he : p.answer true before.getLast? span = .error e) :
    ∃ v, e.violation? = some (span.start, v) ∧ Faulty before (p.text ++ rest) v := by
  cases p with
  | blanks | symbol | word | string | looseQuote => simp [answer] at he
  | equals =>
    simp only [answer, true_and] at he
    split at he
    · next hlast =>
      cases he
      exact ⟨_, rfl, rfl, .inr ⟨rfl, hlast⟩⟩
    · contradiction
  | number digits =>
    simp only [answer, true_and] at he
    split at he
    · next hbig =>
      cases he
      refine ⟨_, rfl, rest, by rw [String.toList_ofList]; rfl, ?_, ?_⟩
      · rw [String.toList_ofList]
        obtain ⟨d, ds, rfl⟩ := List.exists_cons_of_ne_nil hf.ne_nil
        refine ⟨hf, fun c hc => ?_⟩
        refine eq_false_of_ne_true fun hdigit => ?_
        have hfalse := hb.not_in_run c hc hdigit d rfl
        rw [hf.all d List.mem_cons_self] at hfalse
        contradiction
      · rwa [String.toList_ofList]
    · contradiction
  | openString text =>
    obtain ⟨hq, rfl, -⟩ := hf
    cases he
    exact ⟨_, rfl, text, List.append_nil _, hq⟩
  | foreign ch =>
    cases he
    exact ⟨_, rfl, rfl, .inl hf⟩

/-- Inside a run of digits no violation starts, and at its start only the one about the run. -/
theorem not_faulty_of_number (hrun : IsRun Char.isDigit digits rest)
    (hfits : Numeral.denoted digits < UInt64.size) (ht : digits = passed ++ c :: cs) :
    ¬ Faulty (before ++ passed) (c :: cs ++ rest) v := by
  have hdigit : c.isDigit = true := hrun.all c (by simp [ht])
  obtain ⟨-, he, hq⟩ := class_of_isDigit hdigit
  intro h
  rcases h.cons with ⟨-, hforeign | ⟨heq, -⟩⟩ | ⟨ds, after, -, -, hrest, hwhole, hbig⟩ | ⟨-, heq, -⟩
  · exact absurd (class_of_isForeign hforeign).2.2.2.1 (by simp [hdigit])
  · exact he heq
  · rcases List.eq_nil_or_concat passed with rfl | ⟨passed, d, rfl⟩
    · obtain rfl : digits = ds :=
        hrun.toIsLongest.unique hwhole.toIsLongest (by rw [ht, ← hrest]; rfl)
      omega
    · have hd : d.isDigit = true := hrun.all d (by simp [ht])
      have hstarts := hwhole.starts d (by simp [List.concat_eq_append, ← List.append_assoc])
      simp [hd] at hstarts
  · exact hq heq

/-- The opening quote has a partner, and the places up to it are inside the string. -/
theorem not_faulty_of_string {text : List Char} (hq : '\"' ∉ text) (ho : Outside before)
    (ht : '\"' :: (text ++ ['\"']) = passed ++ c :: cs) (ho' : Outside (before ++ passed)) :
    ¬ Faulty (before ++ passed) (c :: cs ++ rest) v := by
  intro h
  cases passed with
  | nil =>
    obtain ⟨rfl, rfl⟩ := List.cons.inj ht
    rcases h.cons with ⟨-, hforeign | ⟨he, -⟩⟩ | ⟨-, -, -, hd, -⟩ | ⟨-, -, hnone⟩
    · simp [isForeign] at hforeign
    · exact absurd he (by decide)
    · exact absurd hd (by decide)
    · exact hnone (by simp)
  | cons d passed =>
    obtain ⟨rfl, htail⟩ : '\"' = d ∧ text ++ ['\"'] = passed ++ c :: cs := List.cons.inj ht
    have hlast : (c :: cs).getLast? = some '\"' := by
      have hlast := congrArg List.getLast? htail
      rw [List.getLast?_concat, List.getLast?_append] at hlast
      simpa using hlast.symm
    have hclosing : 0 < (c :: cs).count '\"' :=
      List.count_pos_iff.mpr (List.mem_of_getLast? hlast)
    have hcount := congrArg (List.count '\"') htail
    rw [List.count_append, List.count_append, List.count_eq_zero.mpr hq] at hcount
    rw [Outside, List.count_append, List.count_cons_self] at ho'
    rw [Outside] at ho
    simp only [List.count_singleton_self] at hcount
    omega

theorem not_faulty_of_ok (hf : p.Fits true rest) (ho : Outside before)
    (hok : p.answer true before.getLast? span = .ok token?) (ht : p.text = passed ++ ahead)
    (hne : ahead ≠ []) (ho' : Outside (before ++ passed)) :
    ¬ Faulty (before ++ passed) (ahead ++ rest) v := by
  obtain ⟨c, cs, rfl⟩ := List.exists_cons_of_ne_nil hne
  have hc : c ∈ p.text := by
    rw [ht]
    simp
  cases p with
  | blanks | symbol | word =>
    have hplain := isPlain_of_mem (by trivial) hf hc
    exact hplain.not_faulty
  | equals =>
    obtain rfl : passed = [] := by
      cases passed with
      | nil => rfl
      | cons => simp [text] at ht
    obtain rfl : c = '=' := by simpa [text] using hc
    intro h
    rcases h.cons with ⟨-, hforeign | ⟨-, hlast⟩⟩ | ⟨-, -, -, hd, -⟩ | ⟨-, hq, -⟩
    · simp [isForeign, inAlphabet] at hforeign
    · rw [List.append_nil] at hlast
      simp [answer, hlast] at hok
    · exact absurd hd (by decide)
    · exact absurd hq (by decide)
  | number digits =>
    refine not_faulty_of_number hf (Nat.lt_of_not_le fun hbig => ?_) ht
    simp [answer, hbig] at hok
  | string text => exact not_faulty_of_string hf.1 ho ht ho'
  | openString | foreign => simp [answer] at hok
  | looseQuote => exact absurd hf.1 (by decide)

theorem not_digit_of_getLast? (hf : p.Fits true rest)
    (hok : p.answer true previous span = .ok token?) (hc : c ∈ p.text.getLast?)
    (hd : c.isDigit = true) : ∀ d ∈ rest.head?, d.isDigit = false := by
  have hmem : c ∈ p.text := List.mem_of_getLast? hc
  cases p with
  | blanks | symbol | word =>
    have hplain := isPlain_of_mem (by trivial) hf hmem
    simp [hplain.not_digit] at hd
  | equals =>
    obtain rfl : c = '=' := by simpa [text] using hmem
    exact absurd hd (by decide)
  | number digits => exact hf.stops
  | string text =>
    rw [Piece.text, ← List.cons_append, List.getLast?_concat] at hc
    obtain rfl : '\"' = c := Option.some.inj hc
    exact absurd hd (by decide)
  | openString | foreign => simp [answer] at hok
  | looseQuote => exact absurd hf.1 (by decide)

theorem not_mem_of_ok (hf : p.Fits true rest) (hok : p.answer true previous span = .ok token?)
    (hp : ∀ text, p ≠ .string text) :
    '\"' ∉ p.text ∧ ∀ token ∈ token?, token.stringText? = none := by
  cases p with
  | blanks =>
    cases hok
    exact ⟨fun h => (isPlain_of_mem (by trivial) hf h).ne_quote rfl, by simp⟩
  | symbol =>
    cases hok
    exact ⟨fun h => (isPlain_of_mem (by trivial) hf h).ne_quote rfl, by simp [Token.stringText?]⟩
  | word letters =>
    cases hok
    refine ⟨fun h => (isPlain_of_mem (by trivial) hf h).ne_quote rfl, ?_⟩
    simp only [Option.mem_some_iff, forall_eq', Token.ofWord]
    split <;> rfl
  | equals =>
    simp only [answer, true_and] at hok
    split at hok
    · contradiction
    · cases hok
      exact ⟨by decide, by simp [Token.stringText?]⟩
  | number digits =>
    simp only [answer, true_and] at hok
    split at hok
    · contradiction
    · cases hok
      exact ⟨fun h => absurd (hf.all '\"' h) (by decide), by simp [Token.stringText?]⟩
  | string text => exact absurd rfl (hp text)
  | openString | foreign => simp [answer] at hok
  | looseQuote => exact absurd hf.1 (by decide)

theorem count_quote (hf : p.Fits true rest) (hok : p.answer true previous span = .ok token?) :
    p.text.count '\"' % 2 = 0 := by
  by_cases hp : ∃ text, p = .string text
  · obtain ⟨text, rfl⟩ := hp
    rw [Piece.text, List.count_cons_self, List.count_append, List.count_eq_zero.mpr hf.1]
    rfl
  · rw [List.count_eq_zero.mpr (not_mem_of_ok hf hok fun text he => hp ⟨text, he⟩).1]

theorem between (hf : p.Fits true rest) (hok : p.answer true previous span = .ok token?)
    (hb : Between before (p.text ++ rest)) : Between (before ++ p.text) rest := by
  constructor
  · have hquotes := count_quote hf hok
    have hbefore := hb.outside
    unfold Outside at *
    rw [List.count_append]
    omega
  · intro c hc
    rw [List.getLast?_append, List.getLast?_eq_some_getLast (text_ne_nil hf), Option.some_or,
      ← List.getLast?_eq_some_getLast] at hc
    exact not_digit_of_getLast? hf hok hc

end Piece

-- ---------------------------------------------------------------------------
-- Runs
-- ---------------------------------------------------------------------------

namespace Lexer

variable {l : Lexer}

/-- A call without an error passes no place where a violation starts. -/
theorem faultyAt_beyond (hs : l.cursor.StandsIn source) (hl : l.isStrict = true)
    (hr : l.cursor.rest = p.text ++ rest) (hf : p.Fits l.isStrict rest)
    (ho : Outside l.cursor.passed.reverse) (hok : (l.passing p).answer = .ok token?)
    (hv : FaultyAt source before v) (hreach : l.cursor.passed.reverse <+: before) :
    l.cursor.passed.reverse ++ p.text <+: before := by
  obtain ⟨hout, rest', hsource, hfaulty⟩ := hv
  obtain ⟨passed, rfl⟩ := hreach
  have hsplit : passed ++ rest' = p.text ++ rest := by
    have htext := hs.text_eq
    rw [hr, hsource, List.append_assoc] at htext
    exact (List.append_cancel_left htext).symm
  rw [List.prefix_append_right_inj]
  rcases List.append_eq_append_iff.mp hsplit with ⟨ahead, htext, rfl⟩ | ⟨more, rfl, -⟩
  · cases ahead with
    | nil =>
      rw [List.append_nil] at htext
      exact htext ▸ List.prefix_rfl
    | cons c cs =>
      rw [hl] at hf
      rw [passing, hl, ← List.getLast?_reverse] at hok
      exact absurd hfaulty (Piece.not_faulty_of_ok hf ho hok htext (by simp) hout)
  · exact List.prefix_append _ _

/-- The first error of a strict run is the first violation ahead of it. -/
theorem first_violation (l : Lexer) (hs : l.cursor.StandsIn source) (hl : l.isStrict = true)
    (hb : Between l.cursor.passed.reverse l.cursor.rest) :
    match l.calls.findSome? Call.error? with
    | none => ∀ before v, l.cursor.passed.reverse <+: before → ¬ FaultyAt source before v
    | some e => ∃ before v, e.violation? = some (Text.byteLength before, v) ∧
        FaultyAt source before v ∧
        ∀ before' w, l.cursor.passed.reverse <+: before' → FaultyAt source before' w →
          before <+: before' := by
  induction l, hs using run_induction with
  | atEnd l hs hr =>
    rw [calls_of_end hr]
    rintro before v ⟨more, rfl⟩ ⟨-, rest, hsource, hfaulty⟩
    have htext := hs.text_eq
    rw [hr, hsource, List.append_nil, List.append_assoc, List.self_eq_append_right] at htext
    exact hfaulty.rest_ne_nil (List.append_eq_nil_iff.mp htext).2
  | piece l p rest hs hs' hr hf ih =>
    rw [calls_eq_cons hs hr hf, List.findSome?_cons]
    have hft : p.Fits true rest := hl ▸ hf
    have hanswer : (l.passing p).answer =
        p.answer true l.cursor.passed.reverse.getLast? (l.cursor.spanOf p.text) := by
      rw [passing, hl, List.getLast?_reverse]
    rw [hr] at hb
    cases ha : (l.passing p).answer with
    | error e =>
      have he : Call.error? (l.passingCall p) = some e := by simp [Call.error?, passingCall, ha]
      obtain ⟨v, hreports, hfaulty⟩ := Piece.faulty_of_error hft hb (hanswer.symm.trans ha)
      rw [Cursor.start_spanOf, hs.offset_eq] at hreports
      rw [he]
      exact ⟨_, v, hreports, ⟨hb.outside, _, by rw [← hr, hs.text_eq], hfaulty⟩,
        fun before' w hreach _ => hreach⟩
    | ok token? =>
      have he : Call.error? (l.passingCall p) = none := by simp [Call.error?, passingCall, ha]
      have hpassed : (l.passing p).lexer.cursor.passed.reverse =
          l.cursor.passed.reverse ++ p.text := by simp
      have hrest : (l.passing p).lexer.cursor.rest = rest := by
        rw [cursor_passing, Cursor.rest_pass hr]
      have ih := ih (by simpa using hl) (by
        rw [hpassed, hrest]
        exact Piece.between hft (hanswer.symm.trans ha) hb)
      have hbeyond {before : List Char} {v : Violation} (hv : FaultyAt source before v)
          (hreach : l.cursor.passed.reverse <+: before) :
          (l.passing p).lexer.cursor.passed.reverse <+: before :=
        hpassed ▸ faultyAt_beyond hs hl hr hf hb.outside ha hv hreach
      rw [he]
      dsimp only
      cases hfirst : (l.passing p).lexer.calls.findSome? Call.error? with
      | none =>
        rw [hfirst] at ih
        exact fun before v hreach hv => ih before v (hbeyond hv hreach) hv
      | some e =>
        rw [hfirst] at ih
        obtain ⟨before, v, hreports, hv, hleast⟩ := ih
        exact ⟨before, v, hreports, hv,
          fun before' w hreach hw => hleast before' w (hbeyond hw hreach) hw⟩

/-- The strings of a strict run are the odd segments of the text ahead. -/
theorem stringText?_calls (l : Lexer) (hs : l.cursor.StandsIn source) (hl : l.isStrict = true)
    (hok : l.calls.findSome? Call.error? = none) (k : Nat) :
    ((l.calls.filterMap Call.token?).filterMap Token.stringText?)[k]? =
      (segments l.cursor.rest)[2 * k + 1]?.map String.ofList := by
  induction l, hs using run_induction generalizing k with
  | atEnd l hs hr =>
    rw [calls_of_end hr, hr, segments_of_not_mem (by simp)]
    rfl
  | piece l p rest hs _ hr hf ih =>
    rw [calls_eq_cons hs hr hf, List.findSome?_eq_none_iff, List.forall_mem_cons,
      ← List.findSome?_eq_none_iff] at hok
    obtain ⟨he, hok⟩ := hok
    have ih := ih (by simpa using hl) hok
    rw [cursor_passing, Cursor.rest_pass hr] at ih
    rw [hl] at hf
    rw [calls_eq_cons hs hr (hl ▸ hf), List.filterMap_cons, hr]
    cases ha : (l.passingCall p).answer with
    | error e => simp [Call.error?, ha] at he
    | ok token? =>
      have ht : (l.passingCall p).token? = token? := by simp [Call.token?, ha]
      have ha : p.answer true l.cursor.passed.head? (l.cursor.spanOf p.text) = .ok token? := by
        rw [← ha, ← hl]
        rfl
      rw [ht]
      by_cases hp : ∃ text, p = .string text
      · obtain ⟨text, rfl⟩ := hp
        cases ha
        have hsplit :
            segments ((Piece.string text).text ++ rest) = [] :: text :: segments rest := by
          rw [← segments_append_quote hf.1, ← segments_append_quote (by simp)]
          simp [Piece.text]
        rw [hsplit]
        cases k with
        | zero => rfl
        | succ k => exact ih k
      · have hp : ∀ text, p ≠ .string text := fun text he => hp ⟨text, he⟩
        obtain ⟨hquote, hnone⟩ := Piece.not_mem_of_ok hf ha hp
        rw [segments_append hquote, List.getElem?_modifyHead_succ, ← ih k]
        cases token? with
        | none => rfl
        | some token => simp [hnone token rfl]

end Lexer

/-- Violations start at increasing offsets, one at each. -/
theorem FaultyAt.lt_or_eq (hv : FaultyAt source before v) (hw : FaultyAt source before' w)
    (hreach : before <+: before') :
    Text.byteLength before < Text.byteLength before' ∨
      Text.byteLength before' = Text.byteLength before ∧ w = v := by
  obtain ⟨more, rfl⟩ := hreach
  obtain ⟨-, rest, hsource, hv⟩ := hv
  obtain ⟨-, rest', hsource', hw⟩ := hw
  cases more with
  | nil =>
    rw [List.append_nil] at hsource' hw ⊢
    obtain rfl : rest' = rest := List.append_cancel_left (hsource'.symm.trans hsource)
    exact .inr ⟨rfl, hw.unique hv⟩
  | cons c more =>
    have hpos : 0 < Text.byteLength (c :: more) := byteLength_pos (by simp)
    rw [Text.byteLength_append]
    exact .inl (by omega)

-- ---------------------------------------------------------------------------
-- Whole sources
-- ---------------------------------------------------------------------------

section
variable {source : String}

theorem between_start (source : String) (options : Options) :
    Between (Lexer.start source options).cursor.passed.reverse
      (Lexer.start source options).cursor.rest :=
  ⟨rfl, fun _ hc => nomatch hc⟩

theorem inLanguage_of_lex (hne : source ≠ "") (h : lex source = .ok tokens) :
    InLanguage source.toList := by
  rw [inLanguage_iff]
  intro start v hv
  obtain ⟨before, -, hv⟩ := violates_iff.mp hv
  have hfirst :=
    Lexer.first_violation _ (Lexer.standsIn_start source {}) rfl (between_start source {})
  rw [lex_eq_calls hne] at h
  cases herror : (Lexer.start source {}).calls.findSome? Call.error? with
  | some e => simp [herror] at h
  | none =>
    rw [herror] at hfirst
    exact hfirst before v (List.nil_prefix) hv

theorem violates_of_lex (hne : source ≠ "") (h : lex source = .error e) :
    ∃ start v, e.violation? = some (start, v) ∧ Violates source.toList start v ∧
      ∀ start' w, Violates source.toList start' w → start < start' ∨ start' = start ∧ w = v := by
  have hfirst :=
    Lexer.first_violation _ (Lexer.standsIn_start source {}) rfl (between_start source {})
  rw [lex_eq_calls hne] at h
  cases herror : (Lexer.start source {}).calls.findSome? Call.error? with
  | none => simp [herror] at h
  | some e' =>
    obtain rfl : e' = e := by simpa [herror] using h
    rw [herror] at hfirst
    obtain ⟨before, v, hreports, hv, hleast⟩ := hfirst
    refine ⟨_, v, hreports, violates_iff.mpr ⟨before, rfl, hv⟩, fun start' w hw => ?_⟩
    obtain ⟨before', rfl, hplace⟩ := violates_iff.mp hw
    exact hv.lt_or_eq hplace (hleast before' w List.nil_prefix hplace)

theorem stringText?_of_lex (hne : source ≠ "") (h : lex source = .ok tokens) (k : Nat) :
    (tokens.filterMap Token.stringText?)[k]? =
      (segments source.toList)[2 * k + 1]?.map String.ofList := by
  rw [lex_eq_calls hne] at h
  cases herror : (Lexer.start source {}).calls.findSome? Call.error? with
  | some e => simp [herror] at h
  | none =>
    obtain rfl : (Lexer.start source {}).calls.filterMap Call.token? = tokens := by
      simpa [herror] using h
    exact Lexer.stringText?_calls _ (Lexer.standsIn_start source {}) rfl herror k

end

/-- Strict lexing succeeds exactly on the language, finds the odd segments as strings, and
otherwise reports the violation that starts first. -/
theorem lex_language (source : String) :
    ((∃ tokens, lex source = .ok tokens) ↔ source ≠ "" ∧ InLanguage source.toList) ∧
      (∀ tokens, lex source = .ok tokens → ∀ k : Nat,
        (tokens.filterMap Token.stringText?)[k]? =
          (segments source.toList)[2 * k + 1]?.map String.ofList) ∧
      ∀ e, source ≠ "" → lex source = .error e →
        ∃ start v, e.violation? = some (start, v) ∧ Violates source.toList start v ∧
          ∀ start' w, Violates source.toList start' w →
            start < start' ∨ start' = start ∧ w = v := by
  have hne {tokens : List Token} (h : lex source = .ok tokens) : source ≠ "" := by
    rintro rfl
    exact nomatch h
  refine ⟨⟨?_, ?_⟩, fun tokens h => stringText?_of_lex (hne h) h, fun e => violates_of_lex⟩
  · rintro ⟨tokens, h⟩
    exact ⟨hne h, inLanguage_of_lex (hne h) h⟩
  · rintro ⟨hne, hlanguage⟩
    cases h : lex source with
    | ok tokens => exact ⟨tokens, rfl⟩
    | error e =>
      obtain ⟨start, v, -, hv, -⟩ := violates_of_lex hne h
      exact absurd hv (inLanguage_iff.mp hlanguage start v)

end ScriptLex
