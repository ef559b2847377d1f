import ScriptLex.Proofs.Location

/-!
# The ways to lex agree

A source can be scanned call by call, iterated, or lexed as a whole. Each way
reads the same list of answers: `performAll_scanToken` and `performAll_next`
say what stepping gives for any number of steps, and `lexWith_eq_error_iff`
and `lexWith_eq_ok_iff` read the outcome of a whole run off the list. Whether
tokens end with one for the end of input is no business of the lexer, which
`performAll_withEnd` says of all it does.
-/

namespace ScriptLex

namespace Lexer

-- ---------------------------------------------------------------------------
-- Stepping
-- ---------------------------------------------------------------------------

def results (l : Lexer) : List (Except LexError (Option Token)) := l.calls.map Call.answer

theorem results_of_end {l : Lexer} (h : l.cursor.rest = []) : l.results = [] := by
  rw [results, calls_of_end h, List.map_nil]

theorem results_of_ne_nil {l : Lexer} (h : l.cursor.rest ≠ []) :
    l.results = l.scanToken.answer :: l.scanToken.lexer.results := by
  rw [results, calls_of_ne_nil h, List.map_cons]
  rfl

theorem scanToken_of_end {l : Lexer} (h : l.cursor.rest = []) : l.scanToken = ⟨.ok none, l⟩ := by
  simp [scanToken, h]

/-- As many calls as one likes answer with the results, and with nothing behind them. They are at
the end of input when the results are used up. -/
theorem performAll_scanToken (l : Lexer) (n : Nat) :
    (l.performAll (List.replicate n .scanToken)).1 =
        (l.results.take n).map (Outcome.ofExcept .ofToken?) ++
          List.replicate (n - l.results.length) .nothing ∧
      ((l.performAll (List.replicate n .scanToken)).2.atEnd = true ↔ l.results.length ≤ n) := by
  induction n generalizing l with
  | zero =>
    by_cases h : l.cursor.rest = []
    · simp [performAll, results_of_end h, atEnd, Cursor.atEnd, h]
    · simp [performAll, results_of_ne_nil h, atEnd, Cursor.atEnd, h]
  | succ n ih =>
    rw [List.replicate_succ, performAll_cons]
    by_cases h : l.cursor.rest = []
    · obtain ⟨houtcomes, hend⟩ := ih l
      have hstep : l.perform .scanToken = (.nothing, l) := by
        simp [perform, scanToken_of_end h, Outcome.ofExcept, Outcome.ofToken?]
      simp_all [results_of_end h, List.replicate_succ]
    · obtain ⟨houtcomes, hend⟩ := ih l.scanToken.lexer
      simp_all [results_of_ne_nil h, perform]

theorem rest_of_next_eq_none {l last : Lexer} (h : l.next = (none, last)) :
    last.cursor.rest = [] := by
  fun_induction next l with
  | case1 l hr =>
    cases h
    exact hr
  | case2 | case4 => cases h
  | case3 l ch rest hr step ht ih => exact ih h

/-- The iterator gives its items one by one, and then nothing for ever. -/
theorem performAll_next (l : Lexer) (n : Nat) :
    (l.performAll (List.replicate n .next)).1 =
      (l.items.1.take n).map (Outcome.ofExcept .token) ++
        List.replicate (n - l.items.1.length) .exhausted := by
  induction n generalizing l with
  | zero => simp [performAll]
  | succ n ih =>
    rw [List.replicate_succ, performAll_cons, items_of_next, perform]
    cases hnext : l.next with
    | mk item? after =>
      cases item? with
      | none =>
        have hafter : after.items.1 = [] := by
          rw [items_of_next, next_of_end (rest_of_next_eq_none hnext)]
        simp [ih after, hafter, List.replicate_succ]
      | some item => simp [ih after]

-- ---------------------------------------------------------------------------
-- The token for the end of input
-- ---------------------------------------------------------------------------

def withEnd (b : Bool) (l : Lexer) : Lexer := { l with options := { l.options with emitEnd := b } }

end Lexer

def Step.withEnd {α : Type} (b : Bool) (s : Step α) : Step α := ⟨s.answer, s.lexer.withEnd b⟩

namespace Lexer

variable {l : Lexer} (b : Bool)

@[simp] theorem cursor_withEnd : (l.withEnd b).cursor = l.cursor := rfl

@[simp] theorem collector_withEnd : (l.withEnd b).collector = l.collector := rfl

@[simp] theorem isStrict_withEnd : (l.withEnd b).isStrict = l.isStrict := rfl

theorem number_withEnd : (l.withEnd b).number = l.number.withEnd b := by
  unfold number
  dsimp only [cursor_withEnd, isStrict_withEnd]
  rw [apply_ite (Step.withEnd b), apply_ite (Step.withEnd b)]
  rfl

theorem word_withEnd : (l.withEnd b).word = (l.word.1, l.word.2.withEnd b) := rfl

theorem wordToken_withEnd : (l.withEnd b).wordToken = l.wordToken.withEnd b := by
  unfold wordToken word
  dsimp only [cursor_withEnd]
  cases Fixed.ofKeyword? (String.ofList (l.cursor.rest.takeWhile Char.isAlpha)) <;> rfl

theorem stringText_withEnd : (l.withEnd b).stringText = l.stringText.withEnd b := by
  unfold stringText
  dsimp only [cursor_withEnd, isStrict_withEnd]
  rw [apply_ite (Step.withEnd b), apply_ite (Step.withEnd b)]
  rfl

theorem string_withEnd : (l.withEnd b).string = l.string.withEnd b := by
  have htext : ((l.withEnd b).advance).stringText = l.advance.stringText.withEnd b :=
    stringText_withEnd (l := l.advance) b
  unfold string
  dsimp only [isStrict_withEnd]
  rw [apply_ite (Step.withEnd b), htext]
  congr 1
  dsimp only [Step.withEnd]
  cases l.advance.stringText.answer <;> rfl

theorem equals_withEnd : (l.withEnd b).equals = l.equals.withEnd b := by
  unfold equals
  rw [apply_ite (Step.withEnd b)]
  rfl

theorem unexpected_withEnd (ch : Char) :
    (l.withEnd b).unexpected ch = (l.unexpected ch).withEnd b := by
  unfold unexpected
  rw [apply_ite (Step.withEnd b)]
  rfl

theorem scanToken_withEnd : (l.withEnd b).scanToken = l.scanToken.withEnd b := by
  unfold scanToken
  dsimp only [cursor_withEnd]
  split
  · rfl
  · next ch rest hr =>
    split
    · rfl
    · simp only [apply_ite (Step.withEnd b), equals_withEnd, string_withEnd, number_withEnd,
        wordToken_withEnd, unexpected_withEnd]
      rfl

theorem next_withEnd (l : Lexer) : (l.withEnd b).next = (l.next.1, l.next.2.withEnd b) := by
  fun_induction next l with
  | case1 l hr => exact next_of_end hr
  | case2 l ch rest hr step token ht =>
    rw [next_of_ne_nil (by simp [hr]), scanToken_withEnd]
    simp only [Step.withEnd, step] at ht ⊢
    simp only [ht]
  | case3 l ch rest hr step ht ih =>
    rw [next_of_ne_nil (by simp [hr]), scanToken_withEnd]
    simp only [Step.withEnd, step] at ht ih ⊢
    simp only [ht, ih]
  | case4 l ch rest hr step e ht =>
    rw [next_of_ne_nil (by simp [hr]), scanToken_withEnd]
    simp only [Step.withEnd, step] at ht ⊢
    simp only [ht]

theorem perform_withEnd (l : Lexer) (op : Operation) :
    (l.withEnd b).perform op = ((l.perform op).1, (l.perform op).2.withEnd b) := by
  cases op with
  | scanToken => simp only [perform, scanToken_withEnd, Step.withEnd]
  | next =>
    simp only [perform, next_withEnd]
    obtain ⟨_ | item, after⟩ := l.next <;> rfl
  | advance | skipBlanks | diagnostics | take => rfl
  | number =>
    simp only [perform, number_withEnd, Step.withEnd, cursor_withEnd]
    split <;> rfl
  | word =>
    simp only [perform, cursor_withEnd, word_withEnd]
    by_cases ha : l.cursor.current.isAlpha = true
    · simp only [ha, if_true]
    · simp only [ha]
      rfl
  | stringText => simp only [perform, stringText_withEnd, Step.withEnd]

theorem performAll_withEnd (l : Lexer) (ops : List Operation) :
    (l.withEnd b).performAll ops = ((l.performAll ops).1, (l.performAll ops).2.withEnd b) := by
  induction ops generalizing l with
  | nil => rfl
  | cons op ops ih => simp only [performAll_cons, perform_withEnd, ih]

theorem tokens?_withEnd (l : Lexer) :
    (l.withEnd b).tokens? = l.tokens?.map fun found => (found.1, found.2.withEnd b) := by
  induction hn : l.cursor.rest.length using Nat.strong_induction_on generalizing l with
  | h n ih =>
    rw [tokens?_of_next, tokens?_of_next, next_withEnd]
    cases hnext : l.next with
    | mk item? after =>
      rcases item? with _ | _ | token
      · rfl
      · rfl
      · have hshorter : after.cursor.rest.length < n := by
          have hlt := length_rest_next_lt (l := l) (by rw [hnext])
          rwa [hnext, hn] at hlt
        dsimp only
        rw [ih _ hshorter after rfl]
        cases after.tokens? <;> rfl

end Lexer

-- ---------------------------------------------------------------------------
-- Results of a run
-- ---------------------------------------------------------------------------

theorem not_answers_endOfInput :
    ¬ Answers strict span before text after (.ok (some .endOfInput)) := by
  rintro ⟨htext, ⟨hkeyword, -⟩ | ⟨-, c, hc, -⟩⟩
  · contradiction
  · simp [hc, Fixed.symbol] at htext

namespace Lexer

variable {l : Lexer} {source : List Char}

theorem answers_of_mem_results (hs : l.cursor.StandsIn source) (h : answer ∈ l.results) :
    ∃ span before text after, Answers l.isStrict span before text after answer := by
  obtain ⟨c, hc, rfl⟩ := List.mem_map.mp h
  obtain ⟨text, after, -, -, hanswer⟩ := answers_of_mem_calls hs hc
  exact ⟨_, _, _, _, hanswer⟩

theorem items_eq_results (hs : l.cursor.StandsIn source) :
    l.items = (l.results.filterMap item?, l.finish) := by
  rw [items_eq_transcript l hs, results, List.filterMap_map]
  rfl

theorem performAll_results (l : Lexer) (hs : l.cursor.StandsIn source) :
    (l.performAll (List.replicate l.results.length .scanToken)).2 = l.finish := by
  induction l, hs using run_induction with
  | atEnd l hs hr => rw [results_of_end hr, finish_of_end hr]; rfl
  | piece l p rest hs _ hr hf ih =>
    have hstep : (l.perform .scanToken).2 = (l.passing p).lexer := by
      rw [← scanToken_eq hs.column_pos hr hf]
      rfl
    rw [results_of_ne_nil (rest_ne_nil hr hf), List.length_cons, List.replicate_succ,
      performAll_cons, hstep, scanToken_eq hs.column_pos hr hf, ih, finish_eq hs hr hf]

end Lexer

def Refused (source : String) (options : Options) : Prop :=
  options.mode = .strict ∧ source = ""

instance (source : String) (options : Options) : Decidable (Refused source options) :=
  inferInstanceAs (Decidable (_ ∧ _))

def StopsAt (results : List (Except LexError (Option Token))) (e : LexError) : Prop :=
  ∃ earlier later, results = earlier ++ .error e :: later ∧ ∀ e', .error e' ∉ earlier

/-- Every way to lex a source, told by `results`, what its calls answer up to the end of input and
past errors, and `last`, the lexer behind them. -/
structure LexesAs (source : String) (options : Options)
    (results : List (Except LexError (Option Token))) (last : Lexer) : Prop where
  start?_eq : Lexer.start? source options =
    if Refused source options then .error .emptyInput else .ok (Lexer.start source options)
  stepped : ∀ n, ((Lexer.start source options).performAll (List.replicate n .scanToken)).1 =
    (results.take n).map (Outcome.ofExcept .ofToken?) ++
      List.replicate (n - results.length) .nothing
  atEnd_iff : ∀ n,
    ((Lexer.start source options).performAll (List.replicate n .scanToken)).2.atEnd = true ↔
      results.length ≤ n
  last_eq :
    ((Lexer.start source options).performAll (List.replicate results.length .scanToken)).2 = last
  collected : (Lexer.start source options).items = (results.filterMap item?, last)
  iterated : ∀ n, ((Lexer.start source options).performAll (List.replicate n .next)).1 =
    ((results.filterMap item?).take n).map (Outcome.ofExcept .token) ++
      List.replicate (n - (results.filterMap item?).length) .exhausted
  empty_iff : lexWith source options = .error .emptyInput ↔ Refused source options
  fails_iff : ¬ Refused source options → ∀ e,
    (lexWith source options = .error e ↔ StopsAt results e)
  lexes_iff : ¬ Refused source options → ∀ lexed, (lexWith source options = .ok lexed ↔
    ∃ tokens, results.filterMap item? = tokens.map .ok ∧
      lexed.tokens = tokens ++ (if options.emitEnd then [.endOfInput] else []) ∧
      lexed.diagnostics = last.collector.diagnostics)
  noEnd : .ok (some .endOfInput) ∉ results
  unmoved : ∀ emitEnd ops, (Lexer.start source { options with emitEnd }).performAll ops =
    (((Lexer.start source options).performAll ops).1,
      ((Lexer.start source options).performAll ops).2.withEnd emitEnd)
  ending : lexWith source { options with emitEnd := true } =
    (lexWith source { options with emitEnd := false }).map fun lexed =>
      { lexed with tokens := lexed.tokens ++ [.endOfInput] }
  lex_eq : lex source = (lexWith source ⟨.strict, false⟩).map Lexed.tokens

variable {source : String} {options : Options}

theorem start?_eq_ite (source : String) (options : Options) :
    Lexer.start? source options =
      if Refused source options then .error .emptyInput else .ok (Lexer.start source options) := by
  by_cases h : Refused source options
  · obtain ⟨hmode, rfl⟩ := h
    simp [Lexer.start?, Options.isStrict, Refused, hmode]
  · rw [if_neg h, Lexer.start?_eq]
    intro hstrict hempty
    exact h ⟨beq_iff_eq.mp hstrict, hempty⟩

theorem lexWith_of_refused (h : Refused source options) :
    lexWith source options = .error .emptyInput := by
  rw [lexWith, start?_eq_ite, if_pos h]
  rfl

theorem lexWith_of_not_refused (h : ¬ Refused source options) :
    lexWith source options =
      match (Lexer.start source options).calls.findSome? Call.error? with
      | some e => .error e
      | none => .ok
        ⟨(Lexer.start source options).calls.filterMap Call.token? ++
            if options.emitEnd then [Token.endOfInput] else [],
          (Lexer.start source options).calls.flatMap Call.warnings⟩ :=
  lexWith_eq_calls fun hstrict hempty => h ⟨beq_iff_eq.mp hstrict, hempty⟩

theorem error?_eq_some_iff (c : Call) : c.error? = some e ↔ c.answer = .error e := by
  unfold Call.error?
  split <;> simp_all

theorem stopsAt_results_iff (l : Lexer) :
    StopsAt l.results e ↔ l.calls.findSome? Call.error? = some e := by
  rw [List.findSome?_eq_some_iff, StopsAt, Lexer.results]
  constructor
  · rintro ⟨earlier, later, hresults, hnone⟩
    obtain ⟨cs, cs', hcalls, rfl, hrest⟩ := List.map_eq_append_iff.mp hresults
    obtain ⟨c, later', rfl, hc, rfl⟩ := List.map_eq_cons_iff.mp hrest
    refine ⟨cs, c, later', hcalls, (error?_eq_some_iff c).mpr hc, fun d hd => ?_⟩
    refine Option.eq_none_iff_forall_ne_some.mpr fun e' he => hnone e' ?_
    exact List.mem_map.mpr ⟨d, hd, (error?_eq_some_iff d).mp he⟩
  · rintro ⟨cs, c, later, hcalls, hc, hnone⟩
    refine ⟨cs.map Call.answer, later.map Call.answer, ?_, fun e' he => ?_⟩
    · rw [hcalls, List.map_append, List.map_cons, (error?_eq_some_iff c).mp hc]
    · obtain ⟨d, hd, hanswer⟩ := List.mem_map.mp he
      have herror := hnone d hd
      rw [(error?_eq_some_iff d).mpr hanswer] at herror
      contradiction

theorem items_of_findSome?_eq_none {cs : List Call} (h : cs.findSome? Call.error? = none) :
    cs.filterMap Call.item? = (cs.filterMap Call.token?).map .ok := by
  rw [List.map_filterMap]
  refine List.filterMap_congr fun c hc => ?_
  have herror := List.findSome?_eq_none_iff.mp h c hc
  unfold Call.error? at herror
  unfold Call.item? Call.token?
  cases ha : c.answer with
  | error e => simp [ha] at herror
  | ok token? => rfl

theorem lexWith_eq_error_iff (h : ¬ Refused source options) {e : LexError} :
    lexWith source options = .error e ↔ StopsAt (Lexer.start source options).results e := by
  rw [stopsAt_results_iff, lexWith_of_not_refused h]
  cases (Lexer.start source options).calls.findSome? Call.error? <;> simp

theorem lexWith_eq_ok_iff (h : ¬ Refused source options) {lexed : Lexed} :
    lexWith source options = .ok lexed ↔
      ∃ tokens, (Lexer.start source options).results.filterMap item? = tokens.map .ok ∧
        lexed.tokens = tokens ++ (if options.emitEnd then [.endOfInput] else []) ∧
        lexed.diagnostics = (Lexer.start source options).finish.collector.diagnostics := by
  have hs := Lexer.standsIn_start source options
  have hitems : (Lexer.start source options).results.filterMap item? =
      (Lexer.start source options).calls.filterMap Call.item? := by
    rw [Lexer.results, List.filterMap_map]
    rfl
  rw [lexWith_of_not_refused h, hitems, Lexer.diagnostics_finish _ hs, Lexer.diagnostics_start,
    List.nil_append]
  constructor
  · intro hlex
    cases herror : (Lexer.start source options).calls.findSome? Call.error? with
    | some e => simp [herror] at hlex
    | none =>
      rw [herror] at hlex
      obtain rfl := Except.ok.inj hlex
      exact ⟨_, items_of_findSome?_eq_none herror, rfl, rfl⟩
  · rintro ⟨tokens, htokens, hlexed, hwarnings⟩
    obtain ⟨herror, rfl⟩ := tokens_of_items htokens
    rw [herror, ← hlexed, ← hwarnings]

theorem lexWith_emitEnd (source : String) (options : Options) :
    lexWith source { options with emitEnd := true } =
      (lexWith source { options with emitEnd := false }).map fun lexed =>
        { lexed with tokens := lexed.tokens ++ [.endOfInput] } := by
  have hmode (emitEnd : Bool) : Refused source { options with emitEnd } ↔ Refused source options :=
    Iff.rfl
  by_cases h : Refused source options
  · rw [lexWith_of_refused ((hmode true).mpr h), lexWith_of_refused ((hmode false).mpr h)]
    rfl
  · have hstart (emitEnd : Bool) := start?_eq_ite source { options with emitEnd }
    simp only [hmode, if_neg h] at hstart
    have htrue : Lexer.start source { options with emitEnd := true } =
      (Lexer.start source { options with emitEnd := false }).withEnd true := rfl
    rw [lexWith, lexWith, hstart, hstart, htrue]
    simp only [bind, Except.bind, Lexer.tokens?_withEnd]
    cases (Lexer.start source { options with emitEnd := false }).tokens? <;>
      simp [Except.map, pure, Except.pure]

theorem lex_eq_lexWith (source : String) :
    lex source = (lexWith source ⟨.strict, false⟩).map Lexed.tokens := by
  have hstart : Lexer.start? source ⟨.strict, false⟩ = Lexer.start? source {} := rfl
  rw [lex, lexWith, hstart]
  cases Lexer.start? source {} with
  | error e => rfl
  | ok l =>
    simp only [bind, Except.bind]
    cases l.tokens? <;> simp [Except.map, pure, Except.pure]

/-- All ways to lex a source agree with calls made up to the end of input. -/
theorem lexesAs_results (source : String) (options : Options) :
    LexesAs source options (Lexer.start source options).results
      (Lexer.start source options).finish := by
  have hs := Lexer.standsIn_start source options
  have hright {answer} (h : answer ∈ (Lexer.start source options).results) :=
    Lexer.answers_of_mem_results hs h
  have hitems := Lexer.items_eq_results hs
  refine {
    start?_eq := start?_eq_ite source options
    stepped := fun n => (Lexer.performAll_scanToken _ n).1
    atEnd_iff := fun n => (Lexer.performAll_scanToken _ n).2
    last_eq := Lexer.performAll_results _ hs
    collected := hitems
    iterated := fun n => ?_
    empty_iff := ⟨fun h => ?_, lexWith_of_refused⟩
    fails_iff := fun h e => lexWith_eq_error_iff h
    lexes_iff := fun h lexed => lexWith_eq_ok_iff h
    noEnd := fun h => ?_
    unmoved := fun emitEnd =>
      Lexer.performAll_withEnd emitEnd (Lexer.start source options)
    ending := lexWith_emitEnd source options
    lex_eq := lex_eq_lexWith source }
  · rw [Lexer.performAll_next, hitems]
  · by_contra hnot
    obtain ⟨earlier, later, hresults, -⟩ := (lexWith_eq_error_iff hnot).mp h
    obtain ⟨span, before, text, after, hanswer⟩ :=
      hright (hresults ▸ List.mem_append_right _ List.mem_cons_self)
    exact hanswer
  · obtain ⟨span, before, text, after, hanswer⟩ := hright h
    exact not_answers_endOfInput hanswer

end ScriptLex
