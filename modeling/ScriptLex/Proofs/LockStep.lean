import Mathlib.Data.List.Forall2
import Mathlib.Data.List.Infix
import ScriptLex.Proofs.Tiling

/-!
# Strict and lenient runs in lock step

The modes disagree about where a string starts, and only there. Over a source
whose strings all start with a letter, `calls_lockStep` pairs the calls of the
two runs: both pass the same text, and a strict error is a lenient repair with
one warning at the place of the error.
-/

namespace ScriptLex

-- ---------------------------------------------------------------------------
-- Pairs of calls
-- ---------------------------------------------------------------------------

namespace Call

def Adds (c : Call) (ds : List Diagnostic) : Prop :=
  c.after.collector.diagnostics = c.before.collector.diagnostics ++ ds

def Warns (c : Call) (code : Code) (span : Span) : Prop :=
  ∃ d, c.Adds [d] ∧ d.level = .warning ∧ d.code = some code ∧ d.span = span

/-- What the lenient call `t` makes of the answer of the strict call `s`. -/
def Repairs (s t : Call) : Prop :=
  match s.answer with
  | .ok token? => t.answer = .ok token? ∧ t.Adds []
  | .error (.unexpectedCharacter ch span) =>
    if ch = '=' then t.answer = .ok (some (.fixed .equal)) ∧ t.Adds []
    else t.answer = .ok none ∧ t.Warns .droppedInput span
  | .error (.integerOverflow digits span) =>
    t.answer = .ok (some (.number (UInt64.ofNat (Numeral.denoted digits.toList)))) ∧
      t.Warns .wrappedInteger span
  | .error (.unterminatedString span) =>
    t.answer = .ok (some (.string (String.ofList s.before.cursor.rest.tail))) ∧
      t.Warns .openString span
  | .error .emptyInput => False

structure LockStep (s t : Call) : Prop where
  before_eq : s.before.cursor = t.before.cursor
  after_eq : s.after.cursor = t.after.cursor
  repairs : s.Repairs t

/-- A quote at the start of the call has a letter behind it. -/
def OpensOnLetter (c : Call) : Prop :=
  c.before.cursor.rest.head? = some '\"' → startsWithLetter c.before.cursor.rest.tail = true

/-- An `=` is an error exactly if another stands right behind the call. -/
structure MindsEqual (c : Call) : Prop where
  token : c.answer = .ok (some (.fixed .equal)) → c.before.cursor.passed.head? ≠ some '='
  error : ∀ span, c.answer = .error (.unexpectedCharacter '=' span) →
    c.before.cursor.passed.head? = some '='

theorem adds_warnings (h : Adds c ds) : c.warnings = ds := by
  rw [warnings, h, List.drop_left]

end Call

theorem Piece.Fits.lenient (h : Piece.Fits true rest p)
    (hq : (p.text ++ rest).head? = some '\"' → startsWithLetter (p.text ++ rest).tail = true) :
    p.Fits false rest := by
  cases p with
  | string text =>
    refine ⟨h.1, fun _ => ?_⟩
    have hletter : startsWithLetter (text ++ '\"' :: rest) = true := by
      simpa [Piece.text] using hq rfl
    cases text with
    | nil => simp [startsWithLetter] at hletter
    | cons c cs => exact hletter
  | openString text =>
    obtain ⟨hquote, rfl, -⟩ := h
    exact ⟨hquote, rfl, fun _ => by simpa [Piece.text] using hq rfl⟩
  | looseQuote => exact absurd h.1 (by decide)
  | _ => exact h

namespace Lexer

variable {l m : Lexer} {rest source : List Char} {p : Piece}

theorem adds_passingCall (l : Lexer) (p : Piece) :
    (l.passingCall p).Adds (p.warning? l.isStrict (l.cursor.spanOf p.text)).toList :=
  diagnostics_keep _ (l.pass p.text)

theorem lockStep_passingCall (hc : m.cursor = l.cursor) (hl : l.isStrict = true)
    (hm : m.isStrict = false) (hr : l.cursor.rest = p.text ++ rest) (hf : p.Fits true rest) :
    (l.passingCall p).LockStep (m.passingCall p) := by
  have hadds := adds_passingCall m p
  refine ⟨hc.symm, by simp [passingCall, hc], ?_⟩
  rw [hm, hc] at hadds
  have hs : (l.passingCall p).answer =
      p.answer true l.cursor.passed.head? (l.cursor.spanOf p.text) := by
    simp [passingCall, passing, hl]
  have ht : (m.passingCall p).answer = .ok p.lenientToken? := by
    rw [passingCall, passing, hm]
    exact p.answer_lenient _ _
  unfold Call.Repairs
  rw [hs]
  cases p with
  | blanks | symbol | word | string => exact ⟨ht, hadds⟩
  | equals =>
    by_cases hprevious : l.cursor.passed.head? = some '='
    · simp only [Piece.answer, hprevious, and_self, ↓reduceIte]
      exact ⟨ht, hadds⟩
    · simp only [Piece.answer, hprevious, and_false, ↓reduceIte]
      exact ⟨ht, hadds⟩
  | number digits =>
    simp only [Piece.answer, true_and]
    by_cases hbig : UInt64.size ≤ Numeral.denoted digits
    · simp only [Piece.warning?, Piece.remark?, hbig, ↓reduceIte] at hadds
      simp only [hbig, ↓reduceIte, String.toList_ofList]
      exact ⟨ht, _, hadds, rfl, rfl, rfl⟩
    · simp only [Piece.warning?, Piece.remark?, hbig, ↓reduceIte] at hadds
      simp only [hbig, ↓reduceIte]
      exact ⟨ht, hadds⟩
  | openString text =>
    obtain ⟨-, rfl, -⟩ := hf
    refine ⟨?_, _, hadds, rfl, rfl, rfl⟩
    rw [ht, passingCall, hr]
    simp [Piece.lenientToken?, Piece.text]
  | looseQuote => exact absurd hf.1 (by decide)
  | foreign ch =>
    have hne : ch ≠ '=' := (class_of_isForeign hf).2.1
    simp only [Piece.answer, ↓reduceIte, hne]
    exact ⟨ht, _, hadds, rfl, rfl, rfl⟩

theorem forall₂_lockStep (l : Lexer) (hs : l.cursor.StandsIn source) (hl : l.isStrict = true)
    (hq : ∀ c ∈ l.calls, c.OpensOnLetter) (hc : m.cursor = l.cursor) (hm : m.isStrict = false) :
    List.Forall₂ Call.LockStep l.calls m.calls := by
  induction l, hs using run_induction generalizing m with
  | atEnd l hs hr =>
    rw [calls_of_end hr, calls_of_end (hc ▸ hr)]
    exact .nil
  | piece l p rest hs hs' hr hf ih =>
    rw [calls_eq_cons hs hr hf] at hq ⊢
    rw [hl] at hf
    have hopens : (l.passingCall p).OpensOnLetter := hq _ List.mem_cons_self
    have hms : m.cursor.StandsIn source := hc ▸ hs
    have hmf : p.Fits m.isStrict rest := by
      rw [Call.OpensOnLetter, passingCall, hr] at hopens
      exact hm ▸ hf.lenient hopens
    rw [calls_eq_cons hms (hc ▸ hr) hmf]
    refine .cons (lockStep_passingCall hc hl hm hr hf) (ih (by simpa using hl) ?_ ?_ ?_)
    · exact fun c hc => hq c (List.mem_cons_of_mem _ hc)
    · simp [hc]
    · simpa using hm

theorem mindsEqual_of_mem_calls (hs : l.cursor.StandsIn source) (hl : l.isStrict = true)
    (hc : c ∈ l.calls) : c.MindsEqual := by
  obtain ⟨text, after, -, -, hanswers⟩ := answers_of_mem_calls hs hc
  rw [hl] at hanswers
  constructor
  · intro ha
    rw [ha] at hanswers
    obtain ⟨htext, hkey | ⟨-, d, hd, hpunct | ⟨-, hprevious⟩⟩⟩ := hanswers
    · exact absurd hkey.1 (by decide)
    · obtain rfl : '=' = d := by simpa [Fixed.symbol] using htext.symm.trans hd
      exact absurd hpunct (by decide)
    · rw [← List.getLast?_reverse]
      exact hprevious rfl
  · intro span ha
    rw [ha] at hanswers
    obtain ⟨-, -, -, hforeign | ⟨-, hprevious⟩⟩ := hanswers
    · exact absurd hforeign (by decide)
    · rw [← List.getLast?_reverse]
      exact hprevious

/-- Wherever the strict run meets them, quotes that all have a letter behind them open on one. -/
theorem opensOnLetter_of_mem_calls (hs : l.cursor.StandsIn source)
    (hq : ∀ cs ∈ source.tails, cs.head? = some '\"' → startsWithLetter cs.tail = true)
    (hc : c ∈ l.calls) : c.OpensOnLetter := by
  obtain ⟨-, -, hb, -⟩ := exists_piece_of_mem_calls hs hc
  exact hq _ ((List.mem_tails _ _).mpr ⟨_, hb.text_eq⟩)

end Lexer

namespace Call

theorem Warns.warnings_ne_nil {place : Span} (h : Call.Warns c code place) : c.warnings ≠ [] := by
  obtain ⟨d, hd, -⟩ := h
  simp [adds_warnings hd]

namespace LockStep

variable {s t : Call}

/-- A strict call succeeds exactly if the lenient one warns about nothing and reads no doubled
`=`. -/
theorem error?_eq_none_iff (h : s.LockStep t) (he : s.MindsEqual) :
    s.error? = none ↔ t.warnings = [] ∧
      (t.answer = .ok (some (.fixed .equal)) → t.before.cursor.passed.head? ≠ some '=') := by
  have hrepairs := h.repairs
  unfold Repairs at hrepairs
  rw [← h.before_eq]
  split at hrepairs
  · next token? ha =>
    obtain ⟨ht, hadds⟩ := hrepairs
    simpa [error?, ha, adds_warnings hadds, ht] using he.token
  · next ch span ha =>
    split at hrepairs
    · next heq =>
      obtain rfl := heq
      simp [error?, ha, hrepairs.1, he.error span ha]
    · simp [error?, ha, hrepairs.2.warnings_ne_nil]
  · next ha => simp [error?, ha, hrepairs.2.warnings_ne_nil]
  · next ha => simp [error?, ha, hrepairs.2.warnings_ne_nil]
  · exact hrepairs.elim

theorem token?_eq (h : s.LockStep t) (hok : s.error? = none) : s.token? = t.token? := by
  have hrepairs := h.repairs
  unfold Repairs at hrepairs
  unfold error? at hok
  unfold token?
  cases ha : s.answer with
  | error e => simp [ha] at hok
  | ok token? =>
    rw [ha] at hrepairs
    rw [hrepairs.1]

theorem findSome?_error?_eq_none_iff (h : List.Forall₂ LockStep ss ts)
    (he : ∀ s ∈ ss, s.MindsEqual) :
    ss.findSome? error? = none ↔ ts.flatMap warnings = [] ∧
      ∀ t ∈ ts, t.answer = .ok (some (.fixed .equal)) →
        t.before.cursor.passed.head? ≠ some '=' := by
  rw [List.findSome?_eq_none_iff, List.flatMap_eq_nil_iff]
  induction h with
  | nil => simp
  | cons hst _ ih =>
    rw [List.forall_mem_cons] at he
    simp only [List.forall_mem_cons, hst.error?_eq_none_iff he.1, ih he.2]
    exact and_and_and_comm

theorem filterMap_token?_eq (h : List.Forall₂ LockStep ss ts)
    (hok : ss.findSome? error? = none) : ss.filterMap token? = ts.filterMap token? := by
  rw [List.findSome?_eq_none_iff] at hok
  induction h with
  | nil => rfl
  | cons hst _ ih =>
    rw [List.forall_mem_cons] at hok
    rw [List.filterMap_cons, List.filterMap_cons, hst.token?_eq hok.1, ih hok.2]

end LockStep
end Call

/-- Over a source whose strings start with letters the strict and the lenient run go hand in
hand. So strict lexing succeeds exactly where lenient lexing gives the same tokens, warns about
nothing, and meets no `=` right behind another. -/
theorem calls_lockStep (source : String) (emitEnd : Bool) (hne : source ≠ "")
    (hq : ∀ c ∈ (Lexer.start source ⟨.strict, emitEnd⟩).calls, c.OpensOnLetter) :
    ∃ l m, Lexer.start? source ⟨.strict, emitEnd⟩ = .ok l ∧
      Lexer.start? source ⟨.lenient, emitEnd⟩ = .ok m ∧
      List.Forall₂ Call.LockStep l.calls m.calls ∧
      ∀ tokens, (lexWith source ⟨.strict, emitEnd⟩).map Lexed.tokens = .ok tokens ↔
        lexWith source ⟨.lenient, emitEnd⟩ = .ok ⟨tokens, []⟩ ∧
          ∀ c ∈ m.calls, c.answer = .ok (some (.fixed .equal)) →
            c.before.cursor.passed.head? ≠ some '=' := by
  have hs := Lexer.standsIn_start source ⟨.strict, emitEnd⟩
  have hm := Lexer.standsIn_start source ⟨.lenient, emitEnd⟩
  have hsteps : List.Forall₂ Call.LockStep (Lexer.start source ⟨.strict, emitEnd⟩).calls
      (Lexer.start source ⟨.lenient, emitEnd⟩).calls :=
    Lexer.forall₂_lockStep _ hs rfl hq rfl rfl
  refine ⟨_, _, Lexer.start?_eq fun _ => hne, Lexer.start?_eq fun _ => hne, hsteps,
    fun tokens => ?_⟩
  have hiff := Call.LockStep.findSome?_error?_eq_none_iff hsteps
    fun c hc => Lexer.mindsEqual_of_mem_calls hs rfl hc
  have hlenient : (Lexer.start source ⟨.lenient, emitEnd⟩).calls.findSome? Call.error? = none :=
    List.findSome?_eq_none_iff.mpr fun c hc => Lexer.error?_of_mem_calls hm rfl hc
  rw [lexWith_eq_calls fun _ => hne, lexWith_eq_calls fun _ => hne, hlenient]
  cases herror : (Lexer.start source ⟨.strict, emitEnd⟩).calls.findSome? Call.error? with
  | some e =>
    rw [herror] at hiff
    simp only [Except.map, reduceCtorEq, false_iff, Except.ok.injEq, Lexed.mk.injEq]
    rintro ⟨⟨-, hnone⟩, hdoubled⟩
    exact absurd (hiff.mpr ⟨hnone, hdoubled⟩) (by simp)
  | none =>
    obtain ⟨hnone, hdoubled⟩ := hiff.mp herror
    rw [Call.LockStep.filterMap_token?_eq hsteps herror]
    simp only [Except.map, Except.ok.injEq, Lexed.mk.injEq, hnone, and_true]
    exact ⟨fun h => ⟨h, hdoubled⟩, fun h => h.1⟩

theorem calls_lockStep_all_repairs :
    "é==18446744073709551616\"a b\"c\"d" ≠ "" ∧
      (∀ c ∈ (Lexer.start "é==18446744073709551616\"a b\"c\"d" ⟨.strict, true⟩).calls,
        c.OpensOnLetter) ∧
      ∃ l m, Lexer.start? "é==18446744073709551616\"a b\"c\"d" ⟨.strict, true⟩ = .ok l ∧
        Lexer.start? "é==18446744073709551616\"a b\"c\"d" ⟨.lenient, true⟩ = .ok m ∧
        List.Forall₂ Call.LockStep l.calls m.calls :=
  have hq : ∀ c ∈ (Lexer.start "é==18446744073709551616\"a b\"c\"d" ⟨.strict, true⟩).calls,
      c.OpensOnLetter := fun _ hc =>
    Lexer.opensOnLetter_of_mem_calls (Lexer.standsIn_start _ _) (by decide +kernel) hc
  have ⟨l, m, hl, hm, hsteps, _⟩ := calls_lockStep _ true (by decide) hq
  ⟨by decide, hq, l, m, hl, hm, hsteps⟩

end ScriptLex
