import ScriptLex.Proofs.Location

/-!
# Scanning and draining

Scanning looks at the cursor and the options and never at the warnings that are
kept, so it does not matter to it when these are taken. `IsScan` says that of a
routine, together with what the mode allows it; runs follow operation by
operation.
-/

namespace ScriptLex

-- ---------------------------------------------------------------------------
-- Effects
-- ---------------------------------------------------------------------------

/-- What scanning does to a lexer, whatever that has kept so far. -/
structure Effect (α : Type) where
  answer : α
  cursor : Cursor
  warnings : List Diagnostic

namespace Effect

variable {α : Type} {fails : α → Prop} {strict : Bool}

def on (x : Effect α) (l : Lexer) : α × Lexer :=
  (x.answer,
    { l with cursor := x.cursor, collector := ⟨l.collector.held ++ x.warnings.toArray⟩ })

/-- Strict mode keeps no warnings, and lenient mode does not fail. -/
structure Proper (strict : Bool) (fails : α → Prop) (x : Effect α) : Prop where
  level : ∀ d ∈ x.warnings, d.level = .warning
  silent : strict = true → x.warnings = []
  forgiving : strict = false → ¬ fails x.answer

@[simp] theorem diagnostics_on (x : Effect α) (l : Lexer) :
    (x.on l).2.collector.diagnostics = l.collector.diagnostics ++ x.warnings := by
  simp [on, Collector.diagnostics]

end Effect

def ScansAt {α : Type} (fails : α → Prop) (f : Lexer → α × Lexer) (cursor : Cursor)
    (options : Options) : Prop :=
  ∃ x : Effect α, x.Proper options.isStrict fails ∧
    ∀ collector, f ⟨cursor, options, collector⟩ = x.on ⟨cursor, options, collector⟩

def IsScan {α : Type} (fails : α → Prop) (f : Lexer → α × Lexer) : Prop :=
  ∀ cursor options, ScansAt fails f cursor options

def Fails {α : Type} (answer : Except LexError α) : Prop := ∃ e, answer = .error e

theorem not_fails {α : Type} (a : α) : ¬ Fails (.ok a) := fun ⟨_, h⟩ => nomatch h

def Step.toPair {α : Type} (s : Step α) : Except LexError α × Lexer := (s.answer, s.lexer)

theorem Step.eq_of_toPair {α : Type} {s : Step α} {answer : Except LexError α} {l : Lexer}
    (h : s.toPair = (answer, l)) : s = ⟨answer, l⟩ := by
  cases h
  rfl

namespace ScansAt

variable {α β : Type} {fails : α → Prop} {fails' : β → Prop} {f : Lexer → α × Lexer}
  {cursor after : Cursor} {options : Options} {answer : α}

theorem quiet (answer : α) (after : Cursor)
    (h : options.isStrict = false → ¬ fails answer)
    (heq : ∀ collector, f ⟨cursor, options, collector⟩ = (answer, ⟨after, options, collector⟩)) :
    ScansAt fails f cursor options := by
  refine ⟨⟨answer, after, []⟩, ⟨by simp, fun _ => rfl, h⟩, fun collector => ?_⟩
  simp [heq, Effect.on]

theorem warns (hs : options.isStrict = false) (h : ¬ fails answer)
    (heq : ∀ collector, f ⟨cursor, options, collector⟩ =
      (answer, Lexer.warn ⟨after, options, collector⟩ span message code)) :
    ScansAt fails f cursor options := by
  refine ⟨⟨answer, after, [(Diagnostic.warning message span).withCode code]⟩, ⟨?_, ?_, ?_⟩,
    fun collector => ?_⟩
  · intro d hd
    rw [List.mem_singleton.mp hd]
    rfl
  · intro hs'
    rw [hs] at hs'
    contradiction
  · exact fun _ => h
  · rw [heq, Effect.on, Lexer.warn, Collector.emit, Array.push_eq_append]

theorem map (h : ScansAt fails f cursor options) (g : α → β)
    (hg : ∀ a, fails' (g a) → fails a) :
    ScansAt fails' (fun l => (g (f l).1, (f l).2)) cursor options := by
  obtain ⟨x, hx, heq⟩ := h
  refine ⟨⟨g x.answer, x.cursor, x.warnings⟩, ⟨hx.level, hx.silent, ?_⟩, fun collector => ?_⟩
  · exact fun hs hfails => hx.forgiving hs (hg _ hfails)
  · simp only [heq]
    rfl

theorem congr {g : Lexer → α × Lexer} (h : ScansAt fails f cursor options)
    (heq : ∀ collector, g ⟨cursor, options, collector⟩ = f ⟨cursor, options, collector⟩) :
    ScansAt fails g cursor options := by
  obtain ⟨x, hx, hf⟩ := h
  exact ⟨x, hx, fun collector => (heq collector).trans (hf collector)⟩

end ScansAt

namespace Lexer

variable {α : Type}

theorem isScan_number : IsScan Fails fun l => l.number.toPair := by
  intro cursor options
  cases hover : (Numeral.read (cursor.rest.takeWhile Char.isDigit)).overflowed with
  | false =>
    exact .quiet _ _ (fun _ => not_fails _) fun collector => by
      simp only [number, Step.toPair, eatWhile, onCursor, hover, Bool.false_eq_true, if_false]
      rfl
  | true =>
    cases hs : options.isStrict with
    | true =>
      exact .quiet _ _ (by simp [hs]) fun collector => by
        simp only [number, Step.toPair, eatWhile, onCursor, hover, isStrict, hs, if_true]
        rfl
    | false =>
      exact .warns hs (not_fails _) fun collector => by
        simp only [number, Step.toPair, eatWhile, onCursor, hover, isStrict, hs, if_true,
          Bool.false_eq_true, if_false]
        rfl

theorem isScan_stringText : IsScan Fails fun l => l.stringText.toPair := by
  intro cursor options
  cases hend : (cursor.eatWhile isStringChar).atEnd with
  | false =>
    exact .quiet _ _ (fun _ => not_fails _) fun collector => by
      simp only [stringText, Step.toPair, eatWhile, onCursor, atEnd, hend, Bool.false_eq_true,
        if_false]
      rfl
  | true =>
    cases hs : options.isStrict with
    | true =>
      exact .quiet _ _ (by simp [hs]) fun collector => by
        simp only [stringText, Step.toPair, eatWhile, onCursor, atEnd, hend, isStrict, hs, if_true]
        rfl
    | false =>
      exact .warns hs (not_fails _) fun collector => by
        simp only [stringText, Step.toPair, eatWhile, onCursor, atEnd, hend, isStrict, hs, if_true,
          Bool.false_eq_true, if_false]
        rfl

theorem fails_of_map {α β : Type} {g : α → β} (answer : Except LexError α)
    (h : Fails (answer.map g)) : Fails answer := by
  cases answer with
  | error e => exact ⟨e, rfl⟩
  | ok a => exact absurd h (not_fails _)

theorem isScan_string : IsScan Fails fun l => l.string.toPair := by
  intro cursor options
  cases hloose : !options.isStrict && !cursor.advance.current.isAlpha with
  | true =>
    have hs : options.isStrict = false := by simp_all
    exact .warns hs (not_fails _) fun collector => by
      simp only [string, Step.toPair, advance, onCursor, isStrict, hloose, if_true]
      rfl
  | false =>
    obtain ⟨x, hx, heq⟩ := isScan_stringText cursor.advance options
    have htext (collector : Collector) :
        stringText ⟨cursor.advance, options, collector⟩ =
          ⟨x.answer, (x.on ⟨cursor.advance, options, collector⟩).2⟩ :=
      Step.eq_of_toPair (heq collector)
    cases ha : x.answer with
    | error e =>
      refine ⟨⟨.error e, x.cursor, x.warnings⟩, ⟨hx.level, hx.silent, fun hs => ?_⟩,
        fun collector => ?_⟩
      · exact absurd ⟨e, ha⟩ (hx.forgiving hs)
      · simp only [string, Step.toPair, advance, onCursor, isStrict, hloose, htext, ha,
          Bool.false_eq_true, if_false]
        rfl
    | ok text =>
      refine ⟨⟨.ok (some (.string text)), x.cursor.advance, x.warnings⟩,
        ⟨hx.level, hx.silent, fun _ => not_fails _⟩, fun collector => ?_⟩
      simp only [string, Step.toPair, advance, onCursor, isStrict, hloose, htext, ha,
        Bool.false_eq_true, if_false]
      rfl

theorem isScan_equals : IsScan Fails fun l => l.equals.toPair := by
  intro cursor options
  cases htwice : options.isStrict && cursor.passed.head? == some '=' with
  | true =>
    have hs : options.isStrict = true := by simp_all
    exact .quiet _ _ (by simp [hs]) fun collector => by
      simp only [equals, Step.toPair, advance, onCursor, isStrict, htwice, if_true]
      rfl
  | false =>
    exact .quiet _ _ (fun _ => not_fails _) fun collector => by
      simp only [equals, Step.toPair, advance, onCursor, isStrict, htwice, Bool.false_eq_true,
        if_false]
      rfl

theorem isScan_unexpected (ch : Char) : IsScan Fails fun l => (l.unexpected ch).toPair := by
  intro cursor options
  cases hs : options.isStrict with
  | true =>
    exact .quiet _ _ (by simp [hs]) fun collector => by
      simp only [unexpected, Step.toPair, advance, onCursor, isStrict, hs, if_true]
      rfl
  | false =>
    exact .warns hs (not_fails _) fun collector => by
      simp only [unexpected, Step.toPair, advance, onCursor, isStrict, hs, Bool.false_eq_true,
        if_false]
      rfl

theorem isScan_wordToken : IsScan Fails fun l => l.wordToken.toPair := by
  intro cursor options
  cases hword : Fixed.ofKeyword? (String.ofList (cursor.rest.takeWhile Char.isAlpha)) with
  | none =>
    exact .quiet _ _ (fun _ => not_fails _) fun collector => by
      simp only [wordToken, word, Step.toPair, eatWhile, onCursor, hword]
      rfl
  | some keyword =>
    exact .quiet _ _ (fun _ => not_fails _) fun collector => by
      simp only [wordToken, word, Step.toPair, eatWhile, onCursor, hword]
      rfl

theorem isScan_scanToken : IsScan Fails fun l => l.scanToken.toPair := by
  intro cursor options
  cases hr : cursor.rest with
  | nil =>
    exact .quiet _ _ (fun _ => not_fails _) fun collector => by
      simp only [scanToken, hr]
      rfl
  | cons ch rest =>
    cases hp : Fixed.ofPunctuation? ch with
    | some mark =>
      exact .quiet _ _ (fun _ => not_fails _) fun collector => by
        simp only [scanToken, hr, hp, Step.toPair, advance, onCursor]
        rfl
    | none =>
      by_cases he : ch = '='
      · refine ((isScan_equals cursor options).map (Except.map some) fails_of_map).congr ?_
        intro collector
        simp only [scanToken, hr, he, if_true]
        rfl
      by_cases hq : ch = '\"'
      · refine (isScan_string cursor options).congr ?_
        intro collector
        simp only [scanToken, hr, hq, if_true]
        rfl
      by_cases hd : ch.isDigit = true
      · refine ((isScan_number cursor options).map (Except.map (some ∘ Token.number))
          fails_of_map).congr ?_
        intro collector
        simp only [scanToken, hr, hp, he, hq, hd, if_true, if_false]
        rfl
      by_cases ha : ch.isAlpha = true
      · refine ((isScan_wordToken cursor options).map (Except.map some) fails_of_map).congr ?_
        intro collector
        simp only [scanToken, hr, hp, he, hq, hd, ha, if_true, if_false]
        rfl
      by_cases hb : isBlank ch = true
      · exact .quiet _ _ (fun _ => not_fails _) fun collector => by
          simp only [scanToken, hr, hp, he, hq, hd, ha, hb, if_true, if_false, Step.toPair,
            skipBlanks, eatWhile, onCursor]
          rfl
      · refine (isScan_unexpected ch cursor options).congr ?_
        intro collector
        simp only [scanToken, hr, hp, he, hq, hd, ha, hb, Bool.false_eq_true, if_false]

theorem isScan_next : IsScan (fun item? => ∃ e, item? = some (.error e)) next := by
  intro cursor options
  induction hn : cursor.rest.length using Nat.strong_induction_on generalizing cursor with
  | h n ih =>
    cases hr : cursor.rest with
    | nil => exact .quiet _ _ (by simp) fun collector => next_of_end hr
    | cons ch rest =>
      obtain ⟨x, hx, heq⟩ := isScan_scanToken cursor options
      have hne (collector : Collector) :
          (⟨cursor, options, collector⟩ : Lexer).cursor.rest ≠ [] := by simp [hr]
      have hstep (collector : Collector) := Step.eq_of_toPair (heq collector)
      cases ha : x.answer with
      | error e =>
        refine ⟨⟨some (.error e), x.cursor, x.warnings⟩, ⟨hx.level, hx.silent, fun hs => ?_⟩,
          fun collector => ?_⟩
        · exact absurd ⟨e, ha⟩ (hx.forgiving hs)
        · rw [next_of_ne_nil (hne collector), hstep collector, ha]
          rfl
      | ok token? =>
        cases token? with
        | some token =>
          refine ⟨⟨some (.ok token), x.cursor, x.warnings⟩, ⟨hx.level, hx.silent, by simp⟩,
            fun collector => ?_⟩
          rw [next_of_ne_nil (hne collector), hstep collector, ha]
          rfl
        | none =>
          -- Nothing was found, so the loop goes on from a later cursor.
          have hshorter : x.cursor.rest.length < n := by
            have hlt := length_rest_scanToken_lt (l := ⟨cursor, options, .empty⟩) hr
            rw [hstep] at hlt
            exact hn ▸ hlt
          obtain ⟨y, hy, hnext⟩ := ih _ hshorter x.cursor rfl
          refine ⟨⟨y.answer, y.cursor, x.warnings ++ y.warnings⟩, ⟨?_, ?_, hy.forgiving⟩,
            fun collector => ?_⟩
          · intro d hd
            rcases List.mem_append.mp hd with hd | hd
            · exact hx.level d hd
            · exact hy.level d hd
          · intro hs
            rw [hx.silent hs, hy.silent hs, List.append_nil]
          · rw [next_of_ne_nil (hne collector), hstep collector, ha]
            refine (hnext _).trans ?_
            simp [Effect.on]

end Lexer

-- ---------------------------------------------------------------------------
-- Operations
-- ---------------------------------------------------------------------------

def Operation.observes : Operation → Bool
  | .diagnostics | .take => true
  | .scanToken | .next | .advance | .skipBlanks | .number | .word | .stringText => false

def Outcome.IsError (o : Outcome) : Prop := ∃ e, o = .error e

theorem fails_of_isError {α : Type} {f : α → Outcome} (hf : ∀ a, ¬ (f a).IsError)
    (answer : Except LexError α) (h : (Outcome.ofExcept f answer).IsError) : Fails answer := by
  cases answer with
  | error e => exact ⟨e, rfl⟩
  | ok a => exact absurd h (hf a)

namespace Lexer

theorem isScan_perform {op : Operation} (hop : op.observes = false) :
    IsScan Outcome.IsError (·.perform op) := by
  intro cursor options
  cases op with
  | diagnostics | take => contradiction
  | scanToken =>
    refine (isScan_scanToken cursor options).map (Outcome.ofExcept .ofToken?)
      (fails_of_isError ?_)
    rintro (_ | _) ⟨_, ⟨⟩⟩
  | next =>
    let outcome (item? : Option (Except LexError Token)) : Outcome :=
      match item? with
      | some item => .ofExcept .token item
      | none => .exhausted
    have herror (item? : Option (Except LexError Token)) (h : (outcome item?).IsError) :
        ∃ e, item? = some (.error e) := by
      obtain ⟨e, he⟩ := h
      rcases item? with _ | (_ | _)
      · contradiction
      · exact ⟨_, rfl⟩
      · contradiction
    refine ((isScan_next cursor options).map outcome herror).congr fun collector => ?_
    simp only [perform]
    obtain ⟨_ | item, after⟩ := next ⟨cursor, options, collector⟩
    · rfl
    · rfl
  | advance => exact .quiet .nothing cursor.advance (by rintro _ ⟨_, ⟨⟩⟩) fun _ => rfl
  | skipBlanks =>
    exact .quiet .nothing (cursor.eatWhile isBlank) (by rintro _ ⟨_, ⟨⟩⟩) fun _ => rfl
  | number =>
    by_cases hd : cursor.current.isDigit = true
    · refine ((isScan_number cursor options).map (Outcome.ofExcept .number)
        (fails_of_isError (by rintro _ ⟨_, ⟨⟩⟩))).congr fun collector => ?_
      simp only [perform, hd, if_true]
      rfl
    · exact .quiet (.misuse (.notOnDigit cursor.current)) cursor (by rintro _ ⟨_, ⟨⟩⟩)
        fun collector => by
          simp only [perform, hd]
          rfl
  | word =>
    by_cases ha : cursor.current.isAlpha = true
    · exact .quiet (.text (String.ofList (cursor.rest.takeWhile Char.isAlpha)))
        (cursor.eatWhile Char.isAlpha) (by rintro _ ⟨_, ⟨⟩⟩) fun collector => by
          simp only [perform, ha, if_true, word, eatWhile, onCursor]
    · exact .quiet (.misuse (.notOnLetter cursor.current)) cursor (by rintro _ ⟨_, ⟨⟩⟩)
        fun collector => by
          simp only [perform, ha]
          rfl
  | stringText =>
    exact (isScan_stringText cursor options).map (Outcome.ofExcept .text)
      (fails_of_isError (by rintro _ ⟨_, ⟨⟩⟩))

theorem exists_effect {op : Operation} (hop : op.observes = false) (l : Lexer) :
    ∃ x : Effect Outcome, x.Proper l.isStrict Outcome.IsError ∧
      ∀ m : Lexer, m.cursor = l.cursor → m.options = l.options → m.perform op = x.on m := by
  obtain ⟨x, hx, heq⟩ := isScan_perform hop l.cursor l.options
  refine ⟨x, hx, fun m hcursor hoptions => ?_⟩
  have hm : m = ⟨l.cursor, l.options, m.collector⟩ := by rw [← hcursor, ← hoptions]
  rw [hm]
  exact heq m.collector

theorem perform_observing {op : Operation} (hop : op.observes = true) (l : Lexer) :
    (l.perform op).1 = .diagnostics l.collector.diagnostics ∧
      (l.perform op).2.cursor = l.cursor ∧ (l.perform op).2.options = l.options := by
  cases op with
  | diagnostics | take => exact ⟨rfl, rfl, rfl⟩
  | scanToken | next | advance | skipBlanks | number | word | stringText => contradiction

structure Warned (l : Lexer) : Prop where
  level : ∀ d ∈ l.collector.diagnostics, d.level = .warning
  silent : l.isStrict = true → l.collector.diagnostics = []

theorem Warned.perform {l : Lexer} (h : l.Warned) (op : Operation) :
    (l.perform op).2.Warned ∧ (l.perform op).2.options = l.options ∧
      (l.isStrict = false → ¬ (l.perform op).1.IsError) := by
  cases hop : op.observes with
  | true =>
    obtain ⟨houtcome, -, hoptions⟩ := perform_observing hop l
    refine ⟨?_, hoptions, fun _ herror => ?_⟩
    · cases op with
      | diagnostics => exact h
      | take => exact ⟨fun d hd => (nomatch hd), fun _ => rfl⟩
      | scanToken | next | advance | skipBlanks | number | word | stringText => contradiction
    · obtain ⟨e, he⟩ := herror
      rw [houtcome] at he
      contradiction
  | false =>
    obtain ⟨x, hx, heq⟩ := exists_effect hop l
    rw [heq l rfl rfl]
    refine ⟨⟨fun d hd => ?_, fun hs => ?_⟩, rfl, hx.forgiving⟩
    · rw [Effect.diagnostics_on] at hd
      rcases List.mem_append.mp hd with hd | hd
      · exact h.level d hd
      · exact hx.level d hd
    · rw [Effect.diagnostics_on, h.silent hs, hx.silent hs, List.append_nil]

theorem Warned.performAll {l : Lexer} (h : l.Warned) (ops : List Operation) :
    (l.performAll ops).2.Warned ∧ (l.performAll ops).2.options = l.options ∧
      (l.isStrict = false → ∀ o ∈ (l.performAll ops).1, ¬ o.IsError) := by
  induction ops generalizing l with
  | nil => exact ⟨h, rfl, fun _ o ho => nomatch ho⟩
  | cons op ops ih =>
    obtain ⟨hafter, hoptions, herror⟩ := h.perform op
    obtain ⟨hlast, hsame, herrors⟩ := ih hafter
    rw [performAll_cons]
    refine ⟨hlast, hsame.trans hoptions, fun hs => List.forall_mem_cons.mpr ⟨herror hs, ?_⟩⟩
    apply herrors
    rw [isStrict, hoptions]
    exact hs

theorem Warned.counts {l : Lexer} (h : l.Warned) :
    l.collector.warningCount = l.collector.total ∧ l.collector.errorCount = 0 ∧
      l.collector.hasErrors = false := by
  refine ⟨?_, ?_, ?_⟩
  · exact List.countP_eq_length.mpr fun d hd => decide_eq_true (h.level d hd)
  · refine List.countP_eq_zero.mpr fun d hd => ?_
    simp [h.level d hd]
  · refine List.any_eq_false.mpr fun d hd => ?_
    simp [h.level d hd]

-- ---------------------------------------------------------------------------
-- Runs
-- ---------------------------------------------------------------------------

end Lexer

structure Visit where
  op : Operation
  outcome : Outcome
  cursor : Cursor
deriving DecidableEq

namespace Visit

def taken (v : Visit) : List Diagnostic :=
  match v.op, v.outcome with
  | .take, .diagnostics ds => ds
  | _, _ => []

end Visit

namespace Lexer

variable {l m : Lexer}

def visits (l : Lexer) : List Operation → List Visit
  | [] => []
  | op :: ops =>
    ⟨op, (l.perform op).1, (l.perform op).2.cursor⟩ :: (l.perform op).2.visits ops

theorem outcome_visits (l : Lexer) (ops : List Operation) :
    (l.visits ops).map Visit.outcome = (l.performAll ops).1 := by
  induction ops generalizing l with
  | nil => rfl
  | cons op ops ih => rw [visits, List.map_cons, ih, performAll_cons]

def scans (l : Lexer) (ops : List Operation) : List Visit :=
  (l.visits ops).filter fun v => !v.op.observes

/-- Taking warnings out now and then loses none and changes none. -/
theorem taken_append (hcursor : m.cursor = l.cursor) (hoptions : m.options = l.options)
    (hkept : m.collector.diagnostics = ds ++ l.collector.diagnostics) (ops : List Operation) :
    ds ++ (l.visits ops).flatMap Visit.taken ++ (l.performAll ops).2.collector.diagnostics =
      (m.performAll (ops.filter (· ≠ .take))).2.collector.diagnostics := by
  induction ops generalizing l m ds with
  | nil => simp [visits, performAll, hkept]
  | cons op ops ih =>
    cases hop : op.observes with
    | true =>
      cases op with
      | diagnostics => exact ih hcursor hoptions hkept
      | take =>
        have hmore : m.collector.diagnostics =
            (ds ++ l.collector.diagnostics) ++ (l.perform .take).2.collector.diagnostics := by
          rw [hkept]
          exact (List.append_nil _).symm
        have hlater := ih (l := (l.perform .take).2) hcursor hoptions hmore
        rw [List.append_assoc ds] at hlater
        exact hlater
      | scanToken | next | advance | skipBlanks | number | word | stringText => contradiction
    | false =>
      obtain ⟨x, -, heq⟩ := exists_effect hop l
      have hne : op ≠ .take := by
        rintro rfl
        contradiction
      have hnone : Visit.taken ⟨op, (l.perform op).1, (l.perform op).2.cursor⟩ = [] := by
        cases op <;> first | rfl | contradiction
      rw [visits, List.flatMap_cons, hnone, List.nil_append, performAll_cons,
        List.filter_cons_of_pos (by simpa using hne), performAll_cons, heq l rfl rfl,
        heq m hcursor hoptions]
      have hmore : (x.on m).2.collector.diagnostics =
          ds ++ (x.on l).2.collector.diagnostics := by
        rw [Effect.diagnostics_on, Effect.diagnostics_on, hkept, List.append_assoc]
      exact ih rfl hoptions hmore

/-- What scanning finds does not depend on when warnings are looked at. -/
theorem scans_eq (hcursor : m.cursor = l.cursor) (hoptions : m.options = l.options)
    (ops : List Operation) :
    l.scans ops = m.visits (ops.filter fun op => !op.observes) ∧
      (l.performAll ops).2.cursor =
        (m.performAll (ops.filter fun op => !op.observes)).2.cursor := by
  induction ops generalizing l m with
  | nil => exact ⟨rfl, hcursor.symm⟩
  | cons op ops ih =>
    cases hop : op.observes with
    | true =>
      obtain ⟨-, hsame, hoptions'⟩ := perform_observing hop l
      have hlater := ih (hcursor.trans hsame.symm) (hoptions.trans hoptions'.symm)
      rw [scans, visits, List.filter_cons_of_neg (by simp [hop]),
        List.filter_cons_of_neg (by simp [hop]), performAll_cons]
      exact hlater
    | false =>
      obtain ⟨x, -, heq⟩ := exists_effect hop l
      have hlater := ih (l := (x.on l).2) (m := (x.on m).2) rfl hoptions
      rw [scans, visits, List.filter_cons_of_pos (by simp [hop]),
        List.filter_cons_of_pos (by simp [hop]), performAll_cons, performAll_cons, visits,
        heq l rfl rfl, heq m hcursor hoptions]
      exact ⟨congrArg _ hlater.1, hlater.2⟩

theorem scans_congr (l : Lexer) {ops ops' : List Operation}
    (h : ops'.filter (fun op => !op.observes) = ops.filter fun op => !op.observes) :
    l.scans ops' = l.scans ops ∧ (l.performAll ops').2.cursor = (l.performAll ops).2.cursor := by
  obtain ⟨hscans, hcursor⟩ := scans_eq (l := l) rfl rfl ops
  obtain ⟨hscans', hcursor'⟩ := scans_eq (l := l) rfl rfl ops'
  rw [hscans, hscans', hcursor, hcursor', h]
  exact ⟨rfl, rfl⟩

end Lexer

/-- Warnings survive any order of scanning and taking. What is taken on the way and what is left
at the end are the warnings that would be there if none were taken, what scanning finds and where
it stands is the same whenever warnings are looked at, and all that is ever kept are warnings.
Strict mode keeps none, and lenient mode has no errors. -/
theorem performAll_drains {options : Options} {l : Lexer}
    (hl : Lexer.start? source options = .ok l) (ops : List Operation) :
    let last := (l.performAll ops).2
    (l.visits ops).map Visit.outcome = (l.performAll ops).1 ∧
      (l.visits ops).flatMap Visit.taken ++ last.takeDiagnostics.1 =
        (l.performAll (ops.filter (· ≠ .take))).2.takeDiagnostics.1 ∧
      (∀ ops' : List Operation,
        ops'.filter (fun op => !op.observes) = ops.filter (fun op => !op.observes) →
          l.scans ops' = l.scans ops ∧ (l.performAll ops').2.cursor = last.cursor) ∧
      last.collector.warningCount = last.collector.total ∧ last.collector.errorCount = 0 ∧
      last.collector.hasErrors = false ∧
      (options.mode = .strict → last.collector.diagnostics = []) ∧
      (options.mode = .lenient → ∀ e, .error e ∉ (l.performAll ops).1) := by
  intro last
  obtain ⟨rfl, -⟩ := Lexer.eq_start_of_start? hl
  have hwarned : (Lexer.start source options).Warned :=
    ⟨fun d hd => (nomatch hd), fun _ => rfl⟩
  obtain ⟨hlast, hoptions, herrors⟩ := hwarned.performAll ops
  obtain ⟨hwarnings, hnoErrors, hclean⟩ := hlast.counts
  have hkept : (Lexer.start source options).collector.diagnostics =
      [] ++ (Lexer.start source options).collector.diagnostics := rfl
  refine ⟨Lexer.outcome_visits _ ops, Lexer.taken_append rfl rfl hkept ops,
    fun ops' => Lexer.scans_congr _, hwarnings, hnoErrors, hclean, fun hstrict => ?_,
    fun hlenient e he => ?_⟩
  · apply hlast.silent
    rw [Lexer.isStrict, hoptions]
    exact beq_iff_eq.mpr hstrict
  · refine herrors ?_ _ he ⟨e, rfl⟩
    rw [Lexer.isStrict_start, Options.isStrict, hlenient]
    rfl

theorem performAll_drains_between_two_warnings :
    let ops := [Operation.scanToken, .take, .scanToken, .diagnostics, .next]
    ∃ l, Lexer.start? "#?7" ⟨.lenient, false⟩ = .ok l ∧
      (l.visits ops).map (fun v => (v.outcome, v.taken.length)) =
        [(.nothing, 0), (.diagnostics [(Diagnostic.warning "skipped unexpected character '#'"
            ⟨0, 1, 1, 1⟩).withCode .droppedInput], 1), (.nothing, 0),
          (.diagnostics [(Diagnostic.warning "skipped unexpected character '?'"
            ⟨1, 2, 1, 2⟩).withCode .droppedInput], 0), (.token (.number 7), 0)] ∧
      (l.visits ops).flatMap Visit.taken ++ (l.performAll ops).2.takeDiagnostics.1 =
        (l.performAll [.scanToken, .scanToken, .diagnostics, .next]).2.takeDiagnostics.1 ∧
      l.scans [.scanToken, .scanToken, .next] = l.scans ops ∧
      (∀ e, .error e ∉ (l.performAll ops).1) ∧
      ∃ s, Lexer.start? "#?7" {} = .ok s ∧
        (s.performAll ops).2.collector.diagnostics = [] := by
  intro ops
  have hlenient : Lexer.start? "#?7" ⟨.lenient, false⟩ =
      .ok (Lexer.start "#?7" ⟨.lenient, false⟩) := rfl
  have hstrict : Lexer.start? "#?7" {} = .ok (Lexer.start "#?7" {}) := rfl
  obtain ⟨-, htaken, hscans, -, -, -, -, herrors⟩ := performAll_drains hlenient ops
  obtain ⟨-, -, -, -, -, -, hsilent, -⟩ := performAll_drains hstrict ops
  have hsame := hscans [.scanToken, .scanToken, .next] rfl
  refine ⟨_, hlenient, ?_, htaken, hsame.1, herrors rfl, _, hstrict, hsilent rfl⟩
  decide +kernel

end ScriptLex
