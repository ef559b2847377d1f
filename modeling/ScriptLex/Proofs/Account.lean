import ScriptLex.Proofs.Tiling

/-!
# Lenient mode accounts for its input

A lenient call makes a token, skips blanks, or drops one character with a
warning. `Account` says what that amounts to over a whole source: nothing is
lost without a warning, and every warning is about text that calls for it.
-/

namespace ScriptLex

variable {source : List Char}

-- ---------------------------------------------------------------------------
-- Accounts
-- ---------------------------------------------------------------------------

def Span.holds (s : Span) (offset : Nat) (c : Char) : Bool :=
  decide (s.start ≤ offset) && decide (offset + c.utf8Size ≤ s.stop)

def spansOf (code : Code) (ds : List Diagnostic) : List Span :=
  (ds.filter (·.code = some code)).map Diagnostic.span

/-- Tokens with the places of their lexemes, runs of blanks, and diagnostics account for all of a
source. -/
structure Account (source : List Char) (lexemes : List (Token × Span)) (blanks : List Span)
    (ds : List Diagnostic) : Prop where
  lexeme : ∀ token span, (token, span) ∈ lexemes → ∃ before text after,
    span.Covers source before text after ∧ Answers false span before text after (.ok (some token))
  blank : ∀ span ∈ blanks, ∃ before text after,
    span.Covers source before text after ∧ IsRun isBlank text after
  once : ∀ before c after, source = before ++ c :: after →
    (blanks ++ lexemes.map Prod.snd ++ spansOf .droppedInput ds).countP
      (·.holds (Text.byteLength before) c) = 1
  dropped : ∀ span ∈ spansOf .droppedInput ds, ∃ before c after,
    span.Covers source before [c] after ∧
      (isForeign c = true ∨ c = '\"' ∧ startsWithLetter after = false)
  wrapped : ∀ span, span ∈ spansOf .wrappedInteger ds ↔ ∃ n before digits after,
    (.number n, span) ∈ lexemes ∧ span.Covers source before digits after ∧
      UInt64.size ≤ Numeral.denoted digits
  opened : ∀ d ∈ ds, d.code = some .openString →
    (∃ others, ds = others ++ [d] ∧ ∀ other ∈ others, other.code ≠ some .openString) ∧
      ∃ s before, lexemes.getLast? = some (.string s, d.span) ∧
        d.span.Covers source before ('\"' :: s.toList) [] ∧ '\"' ∉ s.toList
  unclosed : ∀ s span before, (.string s, span) ∈ lexemes →
    span.Covers source before ('\"' :: s.toList) [] → span ∈ spansOf .openString ds
  ordered : ds.Pairwise fun a b => a.span.start < b.span.start ∧ a.span.stop ≤ b.span.start
  warning : ∀ d ∈ ds, d.level = .warning ∧
    d.code ∈ [some .droppedInput, some .wrappedInteger, some .openString]

-- ---------------------------------------------------------------------------
-- Tilings
-- ---------------------------------------------------------------------------

theorem Tiles.le_start (h : Tiles start stop spans) : ∀ s ∈ spans, start ≤ s.start := by
  induction spans generalizing start with
  | nil => simp
  | cons s later ih =>
    obtain ⟨rfl, hlt, hlater⟩ := h
    rw [List.forall_mem_cons]
    exact ⟨Nat.le_refl _, fun t ht => Nat.le_trans (Nat.le_of_lt hlt) (ih hlater t ht)⟩

theorem Tiles.pairwise (h : Tiles start stop spans) :
    spans.Pairwise fun a b => a.start < b.start ∧ a.stop ≤ b.start := by
  induction spans generalizing start with
  | nil => exact .nil
  | cons s later ih =>
    obtain ⟨rfl, hlt, hlater⟩ := h
    refine .cons (fun t ht => ?_) (ih hlater)
    have := hlater.le_start t ht
    omega

theorem Tiles.countP_contains (h : Tiles start stop spans) (hlow : start ≤ offset)
    (hhigh : offset < stop) : spans.countP (·.contains offset) = 1 := by
  induction spans generalizing start with
  | nil =>
    obtain rfl : start = stop := h
    omega
  | cons s later ih =>
    obtain ⟨rfl, hlt, hlater⟩ := h
    rw [List.countP_cons]
    rcases Nat.lt_or_ge offset s.stop with hin | hout
    · have hnone : later.countP (·.contains offset) = 0 := by
        rw [List.countP_eq_zero]
        intro t ht
        have := hlater.le_start t ht
        simp only [Span.contains, Bool.and_eq_true, decide_eq_true_eq]
        omega
      rw [hnone]
      simp [Span.contains, hlow, hin]
    · rw [ih hlater hout]
      simp [Span.contains, Nat.not_lt.mpr hout]

theorem Span.Covers.holds_eq_contains {s : Span} (h : s.Covers source before text after)
    (hsource : source = front ++ c :: back) :
    s.holds (Text.byteLength front) c = s.contains (Text.byteLength front) := by
  have hsize := c.utf8Size_pos
  have hsplit := h.source_eq.symm.trans hsource
  have hend : Text.byteLength front < s.stop → Text.byteLength front + c.utf8Size ≤ s.stop := by
    rw [h.stop_eq, ← Text.byteLength_append]
    intro hlt
    rcases List.append_eq_append_iff.mp hsplit with ⟨more, rfl, -⟩ | ⟨more, htext, hmore⟩
    · rw [Text.byteLength_append] at hlt
      omega
    · cases more with
      | nil =>
        rw [htext, List.append_nil] at hlt
        omega
      | cons d more =>
        obtain rfl : c = d := (List.cons.inj hmore).1
        rw [htext, Text.byteLength_append, Text.byteLength_cons]
        omega
  rw [Span.holds, Span.contains, Bool.eq_iff_iff]
  simp only [Bool.and_eq_true, decide_eq_true_eq]
  exact and_congr_right fun _ => ⟨fun h => by omega, hend⟩

-- ---------------------------------------------------------------------------
-- Lenient calls
-- ---------------------------------------------------------------------------

theorem Piece.of_remark? (h : Piece.remark? p = some remark) :
    (∃ digits, p = .number digits ∧ UInt64.size ≤ Numeral.denoted digits ∧
        remark.2 = .wrappedInteger) ∨
      (∃ text, p = .openString text ∧ remark.2 = .openString) ∨
      (p = .looseQuote ∨ ∃ ch, p = .foreign ch) ∧ remark.2 = .droppedInput := by
  cases p with
  | blanks | symbol | equals | word | string => contradiction
  | number digits =>
    simp only [remark?, Option.ite_none_right_eq_some, Option.some.injEq] at h
    obtain ⟨hbig, rfl⟩ := h
    exact .inl ⟨digits, rfl, hbig, rfl⟩
  | openString text =>
    cases h
    exact .inr (.inl ⟨text, rfl, rfl⟩)
  | looseQuote =>
    cases h
    exact .inr (.inr ⟨.inl rfl, rfl⟩)
  | foreign ch =>
    cases h
    exact .inr (.inr ⟨.inr ⟨ch, rfl⟩, rfl⟩)

theorem Piece.of_lenientToken?_number (h : Piece.lenientToken? p = some (.number n)) :
    ∃ digits, p = .number digits := by
  cases p with
  | number digits => exact ⟨digits, rfl⟩
  | word letters =>
    simp only [lenientToken?, Token.ofWord] at h
    split at h <;> simp at h
  | _ => simp [lenientToken?] at h

theorem Piece.of_lenientToken?_string (h : Piece.lenientToken? p = some (.string s)) :
    p = .string s.toList ∨ p = .openString s.toList := by
  cases p with
  | string text =>
    cases h
    exact .inl (by rw [String.toList_ofList])
  | openString text =>
    cases h
    exact .inr (by rw [String.toList_ofList])
  | word letters =>
    simp only [lenientToken?, Token.ofWord] at h
    split at h <;> simp at h
  | _ => simp [lenientToken?] at h

namespace Call

def lexeme? (c : Call) : Option (Token × Span) := c.token?.map (·, c.span)

def isSilent (c : Call) : Bool :=
  match c.answer with
  | .ok none => c.warnings.isEmpty
  | .ok (some _) | .error _ => false

structure Passes (source : List Char) (c : Call) (p : Piece) (rest : List Char) : Prop where
  covers : c.span.Covers source c.before.cursor.passed.reverse p.text rest
  fits : p.Fits false rest
  rest_eq : c.after.cursor.rest = rest
  answer_eq : c.answer = .ok p.lenientToken?
  warnings_eq : c.warnings =
    (p.remark?.map fun remark => (Diagnostic.warning remark.1 c.span).withCode remark.2).toList

namespace Passes

variable {c : Call} {p : Piece} {rest : List Char}

theorem token?_eq (h : Passes source c p rest) : c.token? = p.lenientToken? := by
  simp [token?, h.answer_eq]

theorem mem_lexeme? (h : Passes source c p rest) :
    (token, place) ∈ c.lexeme? ↔ p.lenientToken? = some token ∧ place = c.span := by
  rw [lexeme?, h.token?_eq, Option.mem_def]
  cases p.lenientToken? with
  | none => simp
  | some t => simp [eq_comm]

theorem mem_warnings (h : Passes source c p rest) :
    d ∈ c.warnings ↔ ∃ remark, p.remark? = some remark ∧
      (Diagnostic.warning remark.1 c.span).withCode remark.2 = d := by
  simp [h.warnings_eq]

/-- Each call goes into one column of the account. -/
theorem once (h : Passes source c p rest) :
    (c.isSilent = true ∧ c.lexeme? = none ∧ c.warnings = []) ∨
      (c.isSilent = false ∧ c.lexeme?.map Prod.snd = some c.span ∧
        spansOf .droppedInput c.warnings = []) ∨
      (c.isSilent = false ∧ c.lexeme? = none ∧ spansOf .droppedInput c.warnings = [c.span]) := by
  have hw := h.warnings_eq
  rw [lexeme?, isSilent, h.token?_eq, h.answer_eq]
  cases p with
  | blanks => exact .inl ⟨by rw [hw]; rfl, rfl, hw⟩
  | symbol | equals | word | string => exact .inr (.inl ⟨rfl, rfl, by rw [hw]; rfl⟩)
  | number digits =>
    refine .inr (.inl ⟨rfl, rfl, ?_⟩)
    rw [hw, Piece.remark?]
    split <;> rfl
  | openString => exact .inr (.inl ⟨rfl, rfl, by rw [hw]; rfl⟩)
  | looseQuote | foreign => exact .inr (.inr ⟨by rw [hw]; rfl, rfl, by rw [hw]; rfl⟩)

end Passes
end Call

-- ---------------------------------------------------------------------------
-- Runs
-- ---------------------------------------------------------------------------

@[simp] theorem spansOf_nil (code : Code) : spansOf code [] = [] := rfl

@[simp] theorem spansOf_append (code : Code) (ds ds' : List Diagnostic) :
    spansOf code (ds ++ ds') = spansOf code ds ++ spansOf code ds' := by
  simp [spansOf]

theorem mem_spansOf : s ∈ spansOf code ds ↔ ∃ d ∈ ds, d.code = some code ∧ d.span = s := by
  simp [spansOf, and_assoc]

/-- Blanks, lexemes and dropped characters are the spans of the calls, in another order. -/
theorem countP_account {cs : List Call} (f : Span → Bool)
    (h : ∀ c ∈ cs, ∃ p rest, Call.Passes source c p rest) :
    ((cs.filter Call.isSilent).map Call.span ++ (cs.filterMap Call.lexeme?).map Prod.snd ++
      spansOf .droppedInput (cs.flatMap Call.warnings)).countP f = (cs.map Call.span).countP f := by
  induction cs with
  | nil => rfl
  | cons c cs ih =>
    rw [List.forall_mem_cons] at h
    obtain ⟨⟨p, rest, hc⟩, hcs⟩ := h
    have ih := ih hcs
    simp only [List.countP_append] at ih ⊢
    rw [List.flatMap_cons, spansOf_append, List.countP_append, List.map_cons, List.countP_cons,
      ← ih]
    rcases hc.once with ⟨hsilent, hlexeme, hwarnings⟩ | ⟨hsilent, hlexeme, hdropped⟩ |
      ⟨hsilent, hlexeme, hdropped⟩
    · rw [List.filter_cons_of_pos hsilent, List.filterMap_cons_none hlexeme, hwarnings]
      simp only [List.map_cons, List.countP_cons, spansOf_nil, List.countP_nil]
      omega
    · obtain ⟨⟨token, place⟩, hlexeme, rfl⟩ := Option.map_eq_some_iff.mp hlexeme
      rw [List.filter_cons_of_neg (by simp [hsilent]), List.filterMap_cons_some hlexeme, hdropped]
      simp only [List.map_cons, List.countP_cons, List.countP_nil]
      omega
    · rw [List.filter_cons_of_neg (by simp [hsilent]), List.filterMap_cons_none hlexeme, hdropped]
      simp only [List.countP_cons, List.countP_nil]
      omega

namespace Lexer

variable {l : Lexer} {c : Call}

def lexemes (l : Lexer) : List (Token × Span) := l.calls.filterMap Call.lexeme?

def blanks (l : Lexer) : List Span := (l.calls.filter Call.isSilent).map Call.span

theorem passes_of_mem_calls (hs : l.cursor.StandsIn source) (hl : l.isStrict = false)
    (hc : c ∈ l.calls) : ∃ p rest, c.Passes source p rest := by
  obtain ⟨p, rest, hcovers, hr, hf, hstrict, hcall⟩ := exists_covers_of_mem_calls hs hc
  refine ⟨p, rest, hcovers, hl ▸ hf, ?_, ?_, ?_⟩
  · rw [hcall, passingCall, cursor_passing]
    exact Cursor.rest_pass hr
  · rw [hcall, passingCall, passing, hstrict, hl]
    exact p.answer_lenient _ _
  · have hspan : c.span = c.before.cursor.spanOf p.text := by
      rw [hcall]
      exact span_passingCall c.before p
    rw [hspan, hcall, warnings_passingCall, hstrict, hl]
    rfl

theorem later_eq_calls (l : Lexer) (h : l.calls = earlier ++ c :: later) :
    later = c.after.calls := by
  induction earlier generalizing l with
  | nil =>
    by_cases hr : l.cursor.rest = []
    · simp [calls_of_end hr] at h
    · rw [calls_of_ne_nil hr] at h
      obtain ⟨rfl, rfl⟩ := List.cons.inj h
      rfl
  | cons e earlier ih =>
    by_cases hr : l.cursor.rest = []
    · simp [calls_of_end hr] at h
    · rw [calls_of_ne_nil hr] at h
      exact ih _ (List.cons.inj h).2

theorem countP_holds (hs : l.cursor.StandsIn source) (hl : l.isStrict = false)
    (hzero : l.cursor.mark.offset = 0) (hsource : source = before ++ ch :: after) :
    (l.blanks ++ l.lexemes.map Prod.snd ++
      spansOf .droppedInput (l.calls.flatMap Call.warnings)).countP
        (·.holds (Text.byteLength before) ch) = 1 := by
  have htiles := tiles_calls l hs
  have hlength : Text.byteLength before < Text.byteLength source := by
    have := ch.utf8Size_pos
    rw [hsource, Text.byteLength_append, Text.byteLength_cons]
    omega
  rw [hzero] at htiles
  rw [blanks, lexemes, countP_account _ fun c hc => passes_of_mem_calls hs hl hc,
    ← htiles.countP_contains (Nat.zero_le _) hlength]
  refine List.countP_congr fun s hmem => ?_
  obtain ⟨c, hc, rfl⟩ := List.mem_map.mp hmem
  obtain ⟨p, rest, hpasses⟩ := passes_of_mem_calls hs hl hc
  rw [hpasses.covers.holds_eq_contains hsource]

theorem pairwise_warnings (hs : l.cursor.StandsIn source) (hl : l.isStrict = false) :
    (l.calls.flatMap Call.warnings).Pairwise fun a b =>
      a.span.start < b.span.start ∧ a.span.stop ≤ b.span.start := by
  have hplace : ∀ c ∈ l.calls, ∀ d ∈ c.warnings, d.span = c.span := by
    intro c hc d hd
    obtain ⟨p, rest, hpasses⟩ := passes_of_mem_calls hs hl hc
    obtain ⟨remark, -, rfl⟩ := hpasses.mem_warnings.mp hd
    rfl
  have htiles := List.pairwise_map.mp (tiles_calls l hs).pairwise
  rw [List.pairwise_flatMap]
  constructor
  · intro c hc
    obtain ⟨p, rest, hpasses⟩ := passes_of_mem_calls hs hl hc
    rw [hpasses.warnings_eq]
    cases p.remark? with
    | none => exact .nil
    | some remark => exact List.pairwise_singleton _ _
  · refine htiles.imp_of_mem fun ha hb hab d hd d' hd' => ?_
    rw [hplace _ ha d hd, hplace _ hb d' hd']
    exact hab

theorem exists_of_mem_warnings (hs : l.cursor.StandsIn source) (hl : l.isStrict = false)
    (hd : d ∈ l.calls.flatMap Call.warnings) :
    ∃ c ∈ l.calls, ∃ (p : Piece) (rest : List Char) (remark : String × Code),
      c.Passes source p rest ∧ p.remark? = some remark ∧
        d = (Diagnostic.warning remark.1 c.span).withCode remark.2 := by
  obtain ⟨c, hc, hd⟩ := List.mem_flatMap.mp hd
  obtain ⟨p, rest, hpasses⟩ := passes_of_mem_calls hs hl hc
  obtain ⟨remark, hremark, rfl⟩ := hpasses.mem_warnings.mp hd
  exact ⟨c, hc, p, rest, remark, hpasses, hremark, rfl⟩

theorem exists_of_mem_lexemes (hs : l.cursor.StandsIn source) (hl : l.isStrict = false)
    (h : (token, place) ∈ l.lexemes) :
    ∃ c ∈ l.calls, ∃ (p : Piece) (rest : List Char),
      c.Passes source p rest ∧ p.lenientToken? = some token ∧ place = c.span := by
  obtain ⟨c, hc, hlexeme⟩ := List.mem_filterMap.mp h
  obtain ⟨p, rest, hpasses⟩ := passes_of_mem_calls hs hl hc
  exact ⟨c, hc, p, rest, hpasses, hpasses.mem_lexeme?.mp hlexeme⟩

theorem covers_of_mem_lexemes (hs : l.cursor.StandsIn source) (hl : l.isStrict = false)
    (h : (token, place) ∈ l.lexemes) :
    ∃ before text after, place.Covers source before text after ∧
      Answers false place before text after (.ok (some token)) := by
  obtain ⟨c, -, p, rest, hpasses, htoken, rfl⟩ := exists_of_mem_lexemes hs hl h
  have hanswers := p.answers hpasses.fits c.span c.before.cursor.passed.reverse
  rw [p.answer_lenient, htoken] at hanswers
  exact ⟨_, _, _, hpasses.covers, hanswers⟩

theorem covers_of_mem_blanks (hs : l.cursor.StandsIn source) (hl : l.isStrict = false)
    (h : place ∈ l.blanks) :
    ∃ before text after, place.Covers source before text after ∧ IsRun isBlank text after := by
  obtain ⟨c, hc, rfl⟩ := List.mem_map.mp h
  obtain ⟨hc, hsilent⟩ := List.mem_filter.mp hc
  obtain ⟨p, rest, hpasses⟩ := passes_of_mem_calls hs hl hc
  have hw := hpasses.warnings_eq
  rw [Call.isSilent, hpasses.answer_eq] at hsilent
  cases p with
  | blanks text => exact ⟨_, _, _, hpasses.covers, hpasses.fits⟩
  | looseQuote | foreign =>
    rw [hw] at hsilent
    contradiction
  | _ => contradiction

theorem covers_of_mem_dropped (hs : l.cursor.StandsIn source) (hl : l.isStrict = false)
    (h : place ∈ spansOf .droppedInput (l.calls.flatMap Call.warnings)) :
    ∃ before c after, place.Covers source before [c] after ∧
      (isForeign c = true ∨ c = '\"' ∧ startsWithLetter after = false) := by
  obtain ⟨d, hd, hcode, rfl⟩ := mem_spansOf.mp h
  obtain ⟨c, -, p, rest, remark, hpasses, hremark, rfl⟩ := exists_of_mem_warnings hs hl hd
  have hcode : remark.2 = .droppedInput := Option.some.inj hcode
  rcases Piece.of_remark? hremark with ⟨-, -, -, h⟩ | ⟨-, -, h⟩ | ⟨rfl | ⟨ch, rfl⟩, -⟩
  · exact absurd (h.symm.trans hcode) (by decide)
  · exact absurd (h.symm.trans hcode) (by decide)
  · exact ⟨_, '\"', _, hpasses.covers, .inr ⟨rfl, hpasses.fits.2⟩⟩
  · exact ⟨_, ch, _, hpasses.covers, .inl hpasses.fits⟩

theorem mem_wrapped_iff (hs : l.cursor.StandsIn source) (hl : l.isStrict = false) (place : Span) :
    place ∈ spansOf .wrappedInteger (l.calls.flatMap Call.warnings) ↔
      ∃ n before digits after, (.number n, place) ∈ l.lexemes ∧
        place.Covers source before digits after ∧ UInt64.size ≤ Numeral.denoted digits := by
  constructor
  · intro h
    obtain ⟨d, hd, hcode, rfl⟩ := mem_spansOf.mp h
    obtain ⟨c, hc, p, rest, remark, hpasses, hremark, rfl⟩ := exists_of_mem_warnings hs hl hd
    have hcode : remark.2 = .wrappedInteger := Option.some.inj hcode
    rcases Piece.of_remark? hremark with ⟨digits, rfl, hbig, -⟩ | ⟨-, -, h⟩ | ⟨-, h⟩
    · have hlexeme := List.mem_filterMap.mpr ⟨c, hc, hpasses.mem_lexeme?.mpr ⟨rfl, rfl⟩⟩
      exact ⟨_, _, _, _, hlexeme, hpasses.covers, hbig⟩
    · exact absurd (h.symm.trans hcode) (by decide)
    · exact absurd (h.symm.trans hcode) (by decide)
  · rintro ⟨n, before, digits, after, hlexeme, hcovers, hbig⟩
    obtain ⟨c, hc, p, rest, hpasses, htoken, rfl⟩ := exists_of_mem_lexemes hs hl hlexeme
    obtain ⟨digits', rfl⟩ := Piece.of_lenientToken?_number htoken
    obtain rfl : digits' = digits :=
      Option.some.inj (hpasses.covers.slice?_eq.symm.trans hcovers.slice?_eq)
    have hremark : (Piece.number digits').remark? = some _ := if_pos hbig
    have hwarning := hpasses.mem_warnings.mpr ⟨_, hremark, rfl⟩
    exact mem_spansOf.mpr ⟨_, List.mem_flatMap.mpr ⟨c, hc, hwarning⟩, rfl, rfl⟩

theorem passes_openString (hs : l.cursor.StandsIn source) (hl : l.isStrict = false)
    (hc : c ∈ l.calls) (hd : d ∈ c.warnings) (hcode : d.code = some .openString) :
    ∃ text, c.Passes source (.openString text) [] ∧ c.warnings = [d] ∧ d.span = c.span := by
  obtain ⟨p, rest, hpasses⟩ := passes_of_mem_calls hs hl hc
  obtain ⟨remark, hremark, rfl⟩ := hpasses.mem_warnings.mp hd
  have hcode : remark.2 = .openString := Option.some.inj hcode
  rcases Piece.of_remark? hremark with ⟨-, -, -, h⟩ | ⟨text, rfl, -⟩ | ⟨-, h⟩
  · exact absurd (h.symm.trans hcode) (by decide)
  · obtain rfl : rest = [] := hpasses.fits.2.1
    have hw := hpasses.warnings_eq
    rw [hremark] at hw
    exact ⟨text, hpasses, hw, rfl⟩
  · exact absurd (h.symm.trans hcode) (by decide)

/-- The end of input closes a string once, and that is the end of the run. -/
theorem openString_last (hs : l.cursor.StandsIn source) (hl : l.isStrict = false)
    (hd : d ∈ l.calls.flatMap Call.warnings) (hcode : d.code = some .openString) :
    (∃ others, l.calls.flatMap Call.warnings = others ++ [d] ∧
        ∀ other ∈ others, other.code ≠ some .openString) ∧
      ∃ s before, l.lexemes.getLast? = some (.string s, d.span) ∧
        d.span.Covers source before ('\"' :: s.toList) [] ∧ '\"' ∉ s.toList := by
  have hend {c : Call} {text : List Char} {earlier later : List Call}
      (hpasses : c.Passes source (.openString text) []) (h : l.calls = earlier ++ c :: later) :
      later = [] := by
    rw [later_eq_calls l h, calls_of_end hpasses.rest_eq]
  obtain ⟨c, hc, hd⟩ := List.mem_flatMap.mp hd
  obtain ⟨text, hpasses, hwarnings, hspan⟩ := passes_openString hs hl hc hd hcode
  obtain ⟨earlier, later, hcalls⟩ := List.append_of_mem hc
  obtain rfl := hend hpasses hcalls
  constructor
  · refine ⟨earlier.flatMap Call.warnings, by simp [hcalls, hwarnings], ?_⟩
    intro other hother hcode
    obtain ⟨c', hc', hother⟩ := List.mem_flatMap.mp hother
    have hmem : c' ∈ l.calls := by
      rw [hcalls]
      exact List.mem_append_left _ hc'
    obtain ⟨text', hpasses', -⟩ := passes_openString hs hl hmem hother hcode
    obtain ⟨first, second, rfl⟩ := List.append_of_mem hc'
    rw [List.append_assoc, List.cons_append] at hcalls
    exact absurd (hend hpasses' hcalls) (by simp)
  · have hlexeme : c.lexeme? = some (.string (String.ofList text), c.span) :=
      hpasses.mem_lexeme?.mpr ⟨rfl, rfl⟩
    refine ⟨String.ofList text, c.before.cursor.passed.reverse, ?_, ?_, ?_⟩
    · rw [lexemes, hcalls, List.filterMap_append, List.filterMap_cons_some hlexeme, hspan]
      simp
    · rw [hspan, String.toList_ofList]
      exact hpasses.covers
    · rw [String.toList_ofList]
      exact hpasses.fits.1

theorem mem_opened_of_unclosed (hs : l.cursor.StandsIn source) (hl : l.isStrict = false)
    (h : (.string s, place) ∈ l.lexemes)
    (hcovers : place.Covers source before ('\"' :: s.toList) []) :
    place ∈ spansOf .openString (l.calls.flatMap Call.warnings) := by
  obtain ⟨c, hc, p, rest, hpasses, htoken, rfl⟩ := exists_of_mem_lexemes hs hl h
  have htext : p.text = '\"' :: s.toList :=
    Option.some.inj (hpasses.covers.slice?_eq.symm.trans hcovers.slice?_eq)
  rcases Piece.of_lenientToken?_string htoken with rfl | rfl
  · -- The closing quote would be one character too many.
    have hlength := congrArg List.length htext
    simp [Piece.text] at hlength
  · have hwarning := hpasses.mem_warnings.mpr ⟨_, rfl, rfl⟩
    exact mem_spansOf.mpr ⟨_, List.mem_flatMap.mpr ⟨c, hc, hwarning⟩, rfl, rfl⟩

theorem warning_of_mem (hs : l.cursor.StandsIn source) (hl : l.isStrict = false)
    (hd : d ∈ l.calls.flatMap Call.warnings) :
    d.level = .warning ∧
      d.code ∈ [some .droppedInput, some .wrappedInteger, some .openString] := by
  obtain ⟨c, -, p, rest, remark, -, hremark, rfl⟩ := exists_of_mem_warnings hs hl hd
  refine ⟨rfl, ?_⟩
  rcases Piece.of_remark? hremark with ⟨-, -, -, h⟩ | ⟨-, -, h⟩ | ⟨-, h⟩
  all_goals simp [Diagnostic.withCode, h]

theorem account_calls (hs : l.cursor.StandsIn source) (hl : l.isStrict = false)
    (hzero : l.cursor.mark.offset = 0) :
    Account source l.lexemes l.blanks (l.calls.flatMap Call.warnings) where
  lexeme _ _ h := covers_of_mem_lexemes hs hl h
  blank _ h := covers_of_mem_blanks hs hl h
  once _ _ _ h := countP_holds hs hl hzero h
  dropped _ h := covers_of_mem_dropped hs hl h
  wrapped := mem_wrapped_iff hs hl
  opened _ hd hcode := openString_last hs hl hd hcode
  unclosed _ _ _ h hcovers := mem_opened_of_unclosed hs hl h hcovers
  ordered := pairwise_warnings hs hl
  warning _ hd := warning_of_mem hs hl hd

theorem fst_lexemes (l : Lexer) : l.lexemes.map Prod.fst = l.calls.filterMap Call.token? := by
  rw [lexemes, List.map_filterMap]
  congr 1
  funext c
  cases h : c.token? <;> simp [Call.lexeme?, h]

end Lexer

/-- Lenient lexing never fails, and its tokens, the blanks that it skips and its warnings account
for all of the source. -/
theorem lexWith_lenient_account (source : String) (emitEnd : Bool) :
    ∃ l ds, Lexer.start? source ⟨.lenient, emitEnd⟩ = .ok l ∧
      lexWith source ⟨.lenient, emitEnd⟩ =
        .ok ⟨l.lexemes.map Prod.fst ++ if emitEnd then [Token.endOfInput] else [], ds⟩ ∧
      Account source.toList l.lexemes l.blanks ds := by
  have hs := Lexer.standsIn_start source ⟨.lenient, emitEnd⟩
  have hne : Options.isStrict ⟨.lenient, emitEnd⟩ = true → source ≠ "" := fun h => nomatch h
  have herror : (Lexer.start source ⟨.lenient, emitEnd⟩).calls.findSome? Call.error? = none :=
    List.findSome?_eq_none_iff.mpr fun c hc => Lexer.error?_of_mem_calls hs rfl hc
  refine ⟨_, _, Lexer.start?_eq hne, ?_, Lexer.account_calls hs rfl rfl⟩
  rw [lexWith_eq_calls hne, herror, Lexer.fst_lexemes]

end ScriptLex
