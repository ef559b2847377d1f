import ScriptLex.Lexer.Session
import ScriptLex.Proofs.Calls
import ScriptLex.Proofs.Machine.Lexer

/-!
# Runs on machine words

The operations on a machine's lexer in any order, and whole sources. As long as
numbers and words are scanned only where one starts, in a source of fewer than
`2 ^ 32 - 1` characters there is no fault in a run, and none in a report of what
it shows.
-/

namespace ScriptLex
namespace Machine

variable {α β : Type}

-- ---------------------------------------------------------------------------
-- Whole sources
-- ---------------------------------------------------------------------------

namespace Lexer

def next (l : Lexer) : Except Fault (Option (Except LexError Token) × Lexer) :=
  if l.cursor.atEnd then
    .ok (none, l)
  else
    match l.scanToken with
    | .error f => .error f
    | .ok (.ok (some token), after) => .ok (some (.ok token), after)
    | .ok (.error e, after) => .ok (some (.error e), after)
    | .ok (.ok none, after) =>
      if _h : after.cursor.remaining < l.cursor.remaining then after.next else .error .stuck
termination_by l.cursor.remaining

def items (l : Lexer) : Except Fault (List (Except LexError Token) × Lexer) :=
  match l.next with
  | .error f => .error f
  | .ok (none, last) => .ok ([], last)
  | .ok (some item, after) =>
    if _h : after.cursor.remaining < l.cursor.remaining then
      match after.items with
      | .error f => .error f
      | .ok (later, last) => .ok (item :: later, last)
    else
      .error .stuck
termination_by l.cursor.remaining

def tokens? (l : Lexer) : Except Fault (Except LexError (List Token × Lexer)) :=
  match l.next with
  | .error f => .error f
  | .ok (none, last) => .ok (.ok ([], last))
  | .ok (some (.error e), _) => .ok (.error e)
  | .ok (some (.ok token), after) =>
    if _h : after.cursor.remaining < l.cursor.remaining then
      match after.tokens? with
      | .error f => .error f
      | .ok (.error e) => .ok (.error e)
      | .ok (.ok (later, last)) => .ok (.ok (token :: later, last))
    else
      .error .stuck
termination_by l.cursor.remaining

end Lexer

def collect (source : String) (options : Options) :
    Except Fault (Except LexError (List Token × Lexer)) := do
  match ← Lexer.start? source options with
  | .error e => return .error e
  | .ok lexer => lexer.tokens?

def lexWith (source : String) (options : Options) : Except Fault (Except LexError Lexed) := do
  let collected ← collect source options
  return collected.map fun (tokens, last) =>
    ⟨tokens ++ if options.emitEnd then [Token.endOfInput] else [], last.collector.diagnostics⟩

def lex (source : String) : Except Fault (Except LexError (List Token)) := do
  let collected ← collect source {}
  return collected.map (·.1)

-- ---------------------------------------------------------------------------
-- Operations
-- ---------------------------------------------------------------------------

namespace Lexer

def outcome (f : α → Outcome) (scan : Except Fault (Answered α)) : Except Fault (Outcome × Lexer) :=
  do
    let (answer, after) ← scan
    return (.ofExcept f answer, after)

def perform (l : Lexer) : Operation → Except Fault (Outcome × Lexer)
  | .scanToken => outcome .ofToken? l.scanToken
  | .next => do
    match ← l.next with
    | (some item, after) => return (.ofExcept .token item, after)
    | (none, after) => return (.exhausted, after)
  | .advance => do
    let after ← l.advance
    return (.nothing, after)
  | .skipBlanks => do
    let after ← l.skipBlanks
    return (.nothing, after)
  | .number => outcome .number l.number
  | .word => do
    let (text, after) ← l.word
    return (.text text, after)
  | .stringText => outcome .text l.stringText
  | .diagnostics => .ok (.diagnostics l.collector.diagnostics, l)
  | .take =>
    let (taken, collector) := l.collector.take
    .ok (.diagnostics taken, { l with collector })

def performAll (l : Lexer) : List Operation → Except Fault (List Outcome × Lexer)
  | [] => .ok ([], l)
  | op :: ops => do
    let (outcome, after) ← l.perform op
    let (outcomes, last) ← after.performAll ops
    return (outcome :: outcomes, last)

end Lexer
end Machine

def Operation.permitted (ch : Char) : Operation → Bool
  | .number => ch.isDigit
  | .word => ch.isAlpha
  | _ => true

def Lexer.permits (l : Lexer) : List Operation → Bool
  | [] => true
  | op :: ops => op.permitted l.cursor.current && (l.perform op).2.permits ops

def Outcome.shown : Outcome → List Diagnostic
  | .error e => [e.toDiagnostic]
  | .diagnostics ds => ds
  | _ => []

-- ---------------------------------------------------------------------------
-- Whole sources are followed
-- ---------------------------------------------------------------------------

namespace Lexer

variable {l : Lexer} {source : List Char}

theorem start?_image (source : String) (options : Options) :
    Machine.Lexer.start? source options =
      .ok ((start? source options).map (image source.toList)) := by
  unfold Machine.Lexer.start? start?
  rw [Bool.and_comm, Cursor.start_image]
  split
  · rfl
  · rfl

theorem Within.start {source : String} {options : Options} {l : Lexer}
    (h : start? source options = .ok l) : l.Within source.toList := by
  unfold start? at h
  split at h
  · contradiction
  · obtain rfl := Except.ok.inj h
    exact ⟨Cursor.standsIn_start source, fun _ hd => nomatch hd⟩

section
variable (hsize : source.length + 1 < Machine.counterLimit)
include hsize

theorem next_image_of_cons {ch : Char} {rest : List Char} (h : l.Within source)
    (hr : l.cursor.rest = ch :: rest) :
    (l.image source).next =
      match l.scanToken.answer with
      | .ok (some token) => .ok (some (.ok token), l.scanToken.lexer.image source)
      | .error e => .ok (some (.error e), l.scanToken.lexer.image source)
      | .ok none => (l.scanToken.lexer.image source).next := by
  have hend : ¬ (l.image source).cursor.atEnd = true := by
    rw [image, h.stands.atEnd_image, Cursor.atEnd, hr]
    exact Bool.false_ne_true
  have hscan := scanToken_follows hsize h
  have hshorter := remaining_image_lt h hscan.within (length_rest_scanToken_lt hr)
  rw [Machine.Lexer.next, if_neg hend, hscan.runs]
  cases l.scanToken.answer with
  | error e => rfl
  | ok token? =>
    cases token? with
    | some token => rfl
    | none => exact dif_pos hshorter

theorem next_follows (h : l.Within source) :
    Follows source (·.elim [] errors) (l.image source).next l.next := by
  fun_induction next l with
  | case1 l hr =>
    have hend : (l.image source).cursor.atEnd = true := by
      rw [image, h.stands.atEnd_image, Cursor.atEnd, hr]
      rfl
    rw [Machine.Lexer.next, if_pos hend]
    exact ⟨rfl, h, fun _ hd => absurd hd List.not_mem_nil⟩
  | case2 l ch rest hr step token hanswer =>
    have hscan := scanToken_follows hsize h
    rw [next_image_of_cons hsize h hr, hanswer]
    exact ⟨rfl, hscan.within, fun _ hd => absurd hd List.not_mem_nil⟩
  | case3 l ch rest hr step hanswer ih =>
    -- Blanks or dropped input: what follows is read by the same loop.
    have hscan := scanToken_follows hsize h
    rw [next_image_of_cons hsize h hr, hanswer]
    exact ih hscan.within
  | case4 l ch rest hr step e hanswer =>
    have hscan := scanToken_follows hsize h
    rw [next_image_of_cons hsize h hr, hanswer]
    rw [hanswer] at hscan
    exact ⟨rfl, hscan.within, hscan.shown_within⟩

theorem items_follows (h : l.Within source) :
    Follows source (·.flatMap errors) (l.image source).items l.items := by
  fun_induction items l with
  | case1 l hnext =>
    have hfollows := next_follows hsize h
    rw [Machine.Lexer.items, hfollows.runs, hnext]
    exact ⟨rfl, hfollows.within, fun _ hd => nomatch hd⟩
  | case2 l item hnext later ih =>
    have hfollows := next_follows hsize h
    have hshorter := remaining_image_lt h hfollows.within (length_rest_next_lt hnext)
    have hlater := ih hfollows.within
    have hshown := hfollows.shown_within
    rw [hnext] at hshown
    rw [Machine.Lexer.items, hfollows.runs, hnext]
    dsimp only
    refine ⟨?_, hlater.within, fun d hd => ?_⟩
    · rw [dif_pos hshorter, hlater.runs]
    · rw [List.flatMap_cons, List.mem_append] at hd
      rcases hd with hd | hd
      · exact hshown d hd
      · exact hlater.shown_within d hd

theorem tokens?_image_of_token {token : Token} (h : l.Within source)
    (hnext : l.next.1 = some (.ok token)) :
    (l.image source).tokens? =
      match (l.next.2.image source).tokens? with
      | .error f => .error f
      | .ok (.error e) => .ok (.error e)
      | .ok (.ok (later, last)) => .ok (.ok (token :: later, last)) := by
  have hfollows := next_follows hsize h
  have hshorter := remaining_image_lt h hfollows.within (length_rest_next_lt hnext)
  rw [Machine.Lexer.tokens?, hfollows.runs, hnext]
  exact dif_pos hshorter

theorem tokens?_follows (h : l.Within source) :
    (l.image source).tokens? =
        .ok (l.tokens?.map fun (tokens, last) => (tokens, last.image source)) ∧
      ∀ d ∈ diagnosed (·.2.collector.diagnostics) l.tokens?, d.Within source := by
  have hfollows := next_follows hsize h
  fun_induction tokens? l with
  | case1 l hnext =>
    rw [Machine.Lexer.tokens?, hfollows.runs, hnext]
    exact ⟨rfl, hfollows.within.kept⟩
  | case2 l e hnext =>
    have hshown := hfollows.shown_within
    rw [hnext] at hshown
    rw [Machine.Lexer.tokens?, hfollows.runs, hnext]
    exact ⟨rfl, hshown⟩
  | case3 l token hnext later last hlater ih =>
    obtain ⟨hruns, hshown⟩ := ih hfollows.within (next_follows hsize hfollows.within)
    rw [hlater] at hruns hshown
    rw [tokens?_image_of_token hsize h hnext, hruns]
    exact ⟨rfl, hshown⟩
  | case4 l token hnext e hlater ih =>
    obtain ⟨hruns, hshown⟩ := ih hfollows.within (next_follows hsize hfollows.within)
    rw [hlater] at hruns hshown
    rw [tokens?_image_of_token hsize h hnext, hruns]
    exact ⟨rfl, hshown⟩

-- ---------------------------------------------------------------------------
-- Operations are followed
-- ---------------------------------------------------------------------------

omit hsize in
theorem outcome_follows {α : Type} {ran : Except Machine.Fault (Machine.Answered α)}
    {answer : Except LexError α} {f : α → Outcome} (hf : ∀ a, (f a).shown = [])
    (h : Follows source errors ran (answer, l)) :
    Follows source Outcome.shown (Machine.Lexer.outcome f ran) (.ofExcept f answer, l) := by
  refine ⟨?_, h.within, fun d hd => ?_⟩
  · rw [h.runs]
    rfl
  · cases answer with
    | ok a =>
      rw [Outcome.ofExcept, hf] at hd
      contradiction
    | error e => exact h.shown_within d hd

theorem perform_follows (h : l.Within source) {op : Operation}
    (hop : op.permitted l.cursor.current = true) :
    Follows source Outcome.shown ((l.image source).perform op) (l.perform op) := by
  cases op with
  | scanToken =>
    refine outcome_follows (fun token? => ?_) (scanToken_follows hsize h)
    cases token? <;> rfl
  | next =>
    have hnext := next_follows hsize h
    unfold Machine.Lexer.perform perform
    dsimp only
    rw [hnext.runs]
    cases hpair : l.next with
    | mk item? after =>
      rw [hpair] at hnext
      cases item? with
      | none => exact ⟨rfl, hnext.within, fun _ hd => nomatch hd⟩
      | some item =>
        refine ⟨rfl, hnext.within, fun d hd => ?_⟩
        cases item with
        | ok token => contradiction
        | error e => exact hnext.shown_within d hd
  | advance =>
    refine ⟨?_, h.advance, fun _ hd => nomatch hd⟩
    rw [Machine.Lexer.perform, advance_image hsize h]
    rfl
  | skipBlanks =>
    refine ⟨?_, h.eatWhile isBlank, fun _ hd => nomatch hd⟩
    rw [Machine.Lexer.perform, Machine.Lexer.skipBlanks, eatWhile_image hsize h]
    rfl
  | number =>
    have hdigit : l.cursor.current.isDigit = true := hop
    rw [perform, if_pos hdigit]
    exact outcome_follows (fun _ => rfl) (number_follows hsize h hdigit)
  | word =>
    have hletter : l.cursor.current.isAlpha = true := hop
    rw [perform, if_pos hletter, Machine.Lexer.perform, word_image hsize h hletter]
    exact ⟨rfl, h.eatWhile Char.isAlpha, fun _ hd => nomatch hd⟩
  | stringText => exact outcome_follows (fun _ => rfl) (stringText_follows hsize h)
  | diagnostics => exact ⟨rfl, h, h.kept⟩
  | take => exact ⟨rfl, ⟨h.stands, fun _ hd => nomatch hd⟩, h.kept⟩

theorem performAll_follows (h : l.Within source) {ops : List Operation}
    (hops : l.permits ops = true) :
    Follows source (·.flatMap Outcome.shown) ((l.image source).performAll ops)
      (l.performAll ops) := by
  induction ops generalizing l with
  | nil => exact ⟨rfl, h, fun _ hd => nomatch hd⟩
  | cons op ops ih =>
    rw [permits, Bool.and_eq_true] at hops
    have hfirst := perform_follows hsize h hops.1
    have hlater := ih hfirst.within hops.2
    refine ⟨?_, hlater.within, fun d hd => ?_⟩
    · rw [Machine.Lexer.performAll, hfirst.runs]
      simp only [bind, Except.bind, hlater.runs]
      rfl
    · rcases List.mem_append.mp (List.flatMap_cons ▸ hd) with hd | hd
      · exact hfirst.shown_within d hd
      · exact hlater.shown_within d hd

end
end Lexer

-- ---------------------------------------------------------------------------
-- No faults
-- ---------------------------------------------------------------------------

variable {source : String}

theorem Lexer.start?_within {options : Options} {e : LexError}
    (h : Lexer.start? source options = .error e) : e.toDiagnostic.Within source.toList := by
  unfold Lexer.start? at h
  split at h
  · obtain rfl := Except.error.inj h
    exact Nat.zero_le _
  · contradiction

section
variable (hsize : source.toList.length + 1 < Machine.counterLimit)
include hsize

theorem collect_follows (options : Options) :
    let collected := (Lexer.start? source options).bind Lexer.tokens?
    Machine.collect source options =
        .ok (collected.map fun (tokens, last) => (tokens, last.image source.toList)) ∧
      ∀ d ∈ diagnosed (·.2.collector.diagnostics) collected, d.Within source.toList := by
  intro collected
  rw [Machine.collect, Lexer.start?_image]
  unfold collected
  cases hstart : Lexer.start? source options with
  | error e =>
    refine ⟨rfl, fun d hd => ?_⟩
    obtain rfl := List.mem_singleton.mp hd
    exact Lexer.start?_within hstart
  | ok l => exact Lexer.tokens?_follows hsize (Lexer.Within.start hstart)

theorem lexWith_follows (options : Options) :
    Machine.lexWith source options = .ok (lexWith source options) ∧
      ∀ d ∈ diagnosed Lexed.diagnostics (lexWith source options), d.Within source.toList := by
  obtain ⟨hruns, hshown⟩ := collect_follows hsize options
  have hlexed : lexWith source options =
      ((Lexer.start? source options).bind Lexer.tokens?).bind fun (tokens, last) =>
        .ok ⟨tokens ++ if options.emitEnd then [Token.endOfInput] else [],
          last.collector.diagnostics⟩ := by
    unfold lexWith
    cases Lexer.start? source options <;> rfl
  rw [Machine.lexWith, hruns, hlexed]
  cases hcollected : (Lexer.start? source options).bind Lexer.tokens? with
  | error e =>
    rw [hcollected] at hshown
    exact ⟨rfl, hshown⟩
  | ok collected =>
    rw [hcollected] at hshown
    exact ⟨rfl, hshown⟩

theorem lex_follows :
    Machine.lex source = .ok (lex source) ∧ ∀ d ∈ errors (lex source), d.Within source.toList := by
  obtain ⟨hruns, hshown⟩ := collect_follows hsize {}
  have hlexed : lex source =
      ((Lexer.start? source {}).bind Lexer.tokens?).bind fun (tokens, _) => .ok tokens := by
    unfold lex
    cases Lexer.start? source {} <;> rfl
  rw [Machine.lex, hruns, hlexed]
  cases hcollected : (Lexer.start? source {}).bind Lexer.tokens? with
  | error e =>
    rw [hcollected] at hshown
    exact ⟨rfl, hshown⟩
  | ok collected => exact ⟨rfl, fun _ hd => nomatch hd⟩

end

/-- The machine answers as expected, and reports the diagnostics in the answer without fault. -/
structure Machine.Answers {α : Type} (source : String) (shown : α → List Diagnostic)
    (ran : Except Fault α) (expected : α) : Prop where
  runs : ran = .ok expected
  reports : ∀ d ∈ shown expected, report d source = .ok (d.report source)

def shownOrKept {α : Type} (shown : α → List Diagnostic) (ran : α × Machine.Lexer) :
    List Diagnostic :=
  shown ran.1 ++ ran.2.collector.diagnostics

theorem Follows.answers {α : Type} {shown : α → List Diagnostic}
    {ran : Except Machine.Fault (α × Machine.Lexer)} {expected : α × Lexer}
    (hsize : source.toList.length + 1 < Machine.counterLimit)
    (h : Follows source.toList shown ran expected) :
    Machine.Answers source (shownOrKept shown) ran
      (expected.1, expected.2.image source.toList) := by
  refine ⟨h.runs, fun d hd => ?_⟩
  rcases List.mem_append.mp hd with hd | hd
  · exact Machine.report_eq hsize (h.shown_within d hd)
  · exact Machine.report_eq hsize (h.within.kept d hd)

/-- In a source of fewer than `2 ^ 32 - 1` characters nothing has a fault: starting, any run of
permitted operations, reading on behind it with or without a stop at the first error, and whole
sources. Neither has a report of any error or warning shown on the way. -/
theorem Machine.runs_without_fault (source : String) (hsize : source.length < 2 ^ 32 - 1)
    (options : Options) :
    Answers source errors (Machine.Lexer.start? source options)
        ((ScriptLex.Lexer.start? source options).map (·.image source.toList)) ∧
      (∀ l, ScriptLex.Lexer.start? source options = .ok l → ∀ ops, l.permits ops = true →
        let last := (l.performAll ops).2
        Answers source (shownOrKept (·.flatMap Outcome.shown))
            ((l.image source.toList).performAll ops)
            ((l.performAll ops).1, last.image source.toList) ∧
          Answers source (shownOrKept (·.flatMap errors)) (last.image source.toList).items
            (last.items.1, last.items.2.image source.toList) ∧
          Answers source (diagnosed (·.2.collector.diagnostics)) (last.image source.toList).tokens?
            (last.tokens?.map fun (tokens, last) => (tokens, last.image source.toList))) ∧
      Answers source errors (lex source) (ScriptLex.lex source) ∧
      Answers source (diagnosed Lexed.diagnostics) (lexWith source options)
        (ScriptLex.lexWith source options) := by
  have hsize : source.toList.length + 1 < counterLimit := by
    rw [String.length_toList]
    exact Nat.add_lt_of_lt_sub hsize
  refine ⟨⟨ScriptLex.Lexer.start?_image source options, fun d hd => ?_⟩, ?_, ?_, ?_⟩
  · rw [errors, diagnosed_map] at hd
    cases hstart : ScriptLex.Lexer.start? source options with
    | ok l =>
      rw [hstart] at hd
      contradiction
    | error e =>
      rw [hstart] at hd
      obtain rfl := List.mem_singleton.mp hd
      exact report_eq hsize (ScriptLex.Lexer.start?_within hstart)
  · intro l hl ops hops last
    have hrun := ScriptLex.Lexer.performAll_follows hsize (.start hl) hops
    obtain ⟨htokens, hshown⟩ := ScriptLex.Lexer.tokens?_follows hsize hrun.within
    refine ⟨hrun.answers hsize, (ScriptLex.Lexer.items_follows hsize hrun.within).answers hsize,
      htokens, fun d hd => ?_⟩
    rw [diagnosed_map] at hd
    exact report_eq hsize (hshown d hd)
  · obtain ⟨hruns, hshown⟩ := lex_follows hsize
    exact ⟨hruns, fun d hd => report_eq hsize (hshown d hd)⟩
  · obtain ⟨hruns, hshown⟩ := lexWith_follows hsize options
    exact ⟨hruns, fun d hd => report_eq hsize (hshown d hd)⟩

/-- Read by hand behind its end, a string seems to start inside a character. -/
theorem Machine.runs_without_fault_inside_a_character :
    "7\"é".length < 2 ^ 32 - 1 ∧
      ∃ l, ScriptLex.Lexer.start? "7\"é" {} = .ok l ∧
        l.permits [.number, .advance, .advance, .stringText] = true ∧
        (l.performAll [.number, .advance, .advance, .stringText]).1 =
          [.number 7, .nothing, .nothing, .error (.unterminatedString ⟨3, 4, 1, 3⟩)] ∧
        report (LexError.unterminatedString ⟨3, 4, 1, 3⟩).toDiagnostic "7\"é" =
          .ok ("error[E1003]: unterminated string literal\n --> 1:3\n  1 | 7\"é\n" ++
            "    |   ^\n  = help: add a closing `\"`\n") := by
  have hsize : "7\"é".length < 2 ^ 32 - 1 := by decide
  have hpermits : (ScriptLex.Lexer.start "7\"é" {}).permits
      [.number, .advance, .advance, .stringText] = true := by cbv
  have houtcomes : ((ScriptLex.Lexer.start "7\"é" {}).performAll
      [.number, .advance, .advance, .stringText]).1 =
        [.number 7, .nothing, .nothing, .error (.unterminatedString ⟨3, 4, 1, 3⟩)] := by cbv
  obtain ⟨-, hruns, -⟩ := runs_without_fault "7\"é" hsize {}
  obtain ⟨hanswers, -⟩ := hruns (ScriptLex.Lexer.start "7\"é" {}) rfl _ hpermits
  have hreports := hanswers.reports
  rw [houtcomes] at hreports
  refine ⟨hsize, ScriptLex.Lexer.start "7\"é" {}, rfl, hpermits, houtcomes, ?_⟩
  exact hreports _ (List.mem_append_left _ (List.mem_singleton_self _))

end ScriptLex
