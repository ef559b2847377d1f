import ScriptLex.Proofs.Calls

/-!
# Transcripts

What a run tells on its way: tokens and errors in order, and the warnings kept
beside them. `Reads` judges a transcript on the text ahead of a cursor, with
no lexer and no longest run of blanks in it, and `Reads.transcript_eq` shows
that it leaves no choice.
-/

namespace ScriptLex

structure Transcript where
  items : List (Except LexError Token)
  warnings : List Diagnostic

def transcript? (source : String) (options : Options) : Except LexError Transcript := do
  let l ← Lexer.start? source options
  return ⟨l.items.1, l.items.2.collector.diagnostics⟩

namespace Transcript

def empty : Transcript := ⟨[], []⟩

instance : Append Transcript where
  append s t := ⟨s.items ++ t.items, s.warnings ++ t.warnings⟩

@[simp] theorem items_append (s t : Transcript) : (s ++ t).items = s.items ++ t.items := rfl

@[simp] theorem warnings_append (s t : Transcript) :
    (s ++ t).warnings = s.warnings ++ t.warnings := rfl

theorem append_assoc (s t u : Transcript) : s ++ t ++ u = s ++ (t ++ u) := by
  change Transcript.mk _ _ = Transcript.mk _ _
  simp

end Transcript

def item? : Except LexError (Option Token) → Option (Except LexError Token)
  | .ok token? => token?.map .ok
  | .error e => some (.error e)

def Call.item? (c : Call) : Option (Except LexError Token) := ScriptLex.item? c.answer

theorem tokens_of_items {cs : List Call} {tokens : List Token}
    (h : cs.filterMap Call.item? = tokens.map .ok) :
    cs.findSome? Call.error? = none ∧ cs.filterMap Call.token? = tokens := by
  induction cs generalizing tokens with
  | nil =>
    cases tokens with
    | nil => exact ⟨rfl, rfl⟩
    | cons => simp at h
  | cons c cs ih =>
    cases ha : c.answer with
    | error e => cases tokens <;> simp [Call.item?, item?, ha] at h
    | ok token? =>
      cases token? with
      | none =>
        have hcs : cs.filterMap Call.item? = tokens.map .ok := by
          simpa [Call.item?, item?, ha] using h
        simpa [Call.error?, Call.token?, ha] using ih hcs
      | some token =>
        cases tokens with
        | nil => simp [Call.item?, item?, ha] at h
        | cons t tokens =>
          obtain ⟨rfl, hcs⟩ : token = t ∧ cs.filterMap Call.item? = tokens.map .ok := by
            simpa [Call.item?, item?, ha] using h
          simpa [Call.error?, Call.token?, ha] using ih hcs

-- ---------------------------------------------------------------------------
-- Transcripts of runs
-- ---------------------------------------------------------------------------

def Piece.transcript (strict : Bool) (c : Cursor) (p : Piece) : Transcript :=
  ⟨(item? (p.answer strict c.passed.head? (c.spanOf p.text))).toList,
    (p.warning? strict (c.spanOf p.text)).toList⟩

namespace Lexer

variable {l : Lexer} {p : Piece} {rest source : List Char}

def transcript (l : Lexer) : Transcript :=
  ⟨l.calls.filterMap Call.item?, l.calls.flatMap Call.warnings⟩

theorem transcript_of_end (h : l.cursor.rest = []) : l.transcript = .empty := by
  simp [transcript, calls_of_end h, Transcript.empty]

theorem transcript_eq (hs : l.cursor.StandsIn source) (hr : l.cursor.rest = p.text ++ rest)
    (hf : p.Fits l.isStrict rest) :
    l.transcript = p.transcript l.isStrict l.cursor ++ (l.passing p).lexer.transcript := by
  have hitem : Call.item? (l.passingCall p) =
      item? (p.answer l.isStrict l.cursor.passed.head? (l.cursor.spanOf p.text)) := rfl
  rw [transcript, calls_eq_cons hs hr hf]
  change Transcript.mk _ _ = Transcript.mk _ _
  rw [List.flatMap_cons, warnings_passingCall]
  cases h : item? (p.answer l.isStrict l.cursor.passed.head? (l.cursor.spanOf p.text)) <;>
    simp [hitem, h, transcript, Piece.transcript]

theorem items_of_next (l : Lexer) :
    l.items =
      match l.next with
      | (none, last) => ([], last)
      | (some item, after) => (item :: after.items.1, after.items.2) := by
  rw [items]
  obtain ⟨item?, after⟩ := l.next
  split
  · simp_all
  · obtain rfl : item? = _ := ‹_›
    rfl

theorem items_eq (hs : l.cursor.StandsIn source) (hr : l.cursor.rest = p.text ++ rest)
    (hf : p.Fits l.isStrict rest) :
    l.items = ((item? (l.passing p).answer).toList ++ (l.passing p).lexer.items.1,
      (l.passing p).lexer.items.2) := by
  rw [items_of_next, next_of_ne_nil (rest_ne_nil hr hf), scanToken_eq hs.column_pos hr hf]
  cases (l.passing p).answer with
  | error e => rfl
  | ok token? =>
    cases token? with
    | none => exact (items_of_next _).symm
    | some token => rfl

theorem items_eq_transcript (l : Lexer) (hs : l.cursor.StandsIn source) :
    l.items = (l.transcript.items, l.finish) := by
  induction l, hs using run_induction with
  | atEnd l hs hr =>
    simp [items_of_next, next_of_end hr, transcript_of_end hr, finish_of_end hr, Transcript.empty]
  | piece l p rest hs _ hr hf ih =>
    rw [items_eq hs hr hf, transcript_eq hs hr hf, finish_eq hs hr hf, ih]
    rfl

end Lexer

theorem transcript?_eq (h : options.isStrict = true → source ≠ "") :
    transcript? source options = .ok (Lexer.start source options).transcript := by
  have hs := Lexer.standsIn_start source options
  have hd := Lexer.diagnostics_finish _ hs
  rw [transcript?, Lexer.start?_eq h]
  simp only [bind, Except.bind, pure, Except.pure, Lexer.items_eq_transcript _ hs, hd]
  rfl

theorem lexWith_of_transcript (h : options.isStrict = true → source ≠ "")
    (ht : (Lexer.start source options).transcript = ⟨tokens.map .ok, ds⟩) :
    lexWith source options =
      .ok ⟨tokens ++ if options.emitEnd then [Token.endOfInput] else [], ds⟩ := by
  obtain ⟨hitems, hwarnings⟩ := Transcript.mk.inj ht
  obtain ⟨herror, htokens⟩ := tokens_of_items hitems
  simp [lexWith_eq_calls h, herror, htokens, hwarnings]

theorem lex_of_transcript (h : source ≠ "")
    (ht : (Lexer.start source {}).transcript = ⟨tokens.map .ok, ds⟩) :
    lex source = .ok tokens := by
  obtain ⟨herror, htokens⟩ := tokens_of_items (Transcript.mk.inj ht).1
  simp [lex_eq_calls h, herror, htokens]

-- ---------------------------------------------------------------------------
-- Reading from a cursor
-- ---------------------------------------------------------------------------

/-- The run from the cursor to the end of input tells this. Blanks may be passed one by one. -/
inductive Reads (strict : Bool) : Cursor → Transcript → Prop where
  | done (hr : c.rest = []) : Reads strict c .empty
  | blank (hr : c.rest = ch :: rest) (hb : isBlank ch = true)
      (later : Reads strict (c.pass [ch]) t) : Reads strict c t
  | piece {p : Piece} (hr : c.rest = p.text ++ rest) (hf : p.Fits strict rest)
      (later : Reads strict (c.pass p.text) t) : Reads strict c (p.transcript strict c ++ t)

theorem Reads.blanks {c : Cursor} (hr : c.rest = text ++ rest) (hb : ∀ ch ∈ text, isBlank ch = true)
    (later : Reads strict (c.pass text) t) : Reads strict c t := by
  induction text generalizing c with
  | nil => exact later
  | cons ch cs ih =>
    have hb := List.forall_mem_cons.mp hb
    refine .blank hr hb.1 (ih (Cursor.rest_pass hr) hb.2 ?_)
    rwa [← Cursor.pass_append]

theorem Lexer.reads_transcript (l : Lexer) (hs : l.cursor.StandsIn source) :
    Reads l.isStrict l.cursor l.transcript := by
  induction l, hs using run_induction with
  | atEnd l hs hr =>
    rw [transcript_of_end hr]
    exact .done hr
  | piece l p rest hs _ hr hf ih =>
    rw [transcript_eq hs hr hf]
    exact .piece hr hf (by simpa using ih)

theorem Lexer.transcript_of_blanks {l : Lexer} (hs : l.cursor.StandsIn source)
    (hr : l.cursor.rest = text ++ rest) (h : IsRun isBlank text rest) :
    l.transcript = (l.pass text).transcript := by
  have hf : Piece.Fits l.isStrict rest (.blanks text) := h
  have hnone (span : Span) : Piece.warning? l.isStrict span (.blanks text) = none := by
    cases l.isStrict <;> rfl
  rw [transcript_eq hs hr hf, Piece.transcript, passing, hnone]
  rfl

theorem Lexer.transcript_of_blank {l : Lexer} (hs : l.cursor.StandsIn source)
    (hr : l.cursor.rest = ch :: rest) (hb : isBlank ch = true) :
    l.transcript = (l.pass [ch]).transcript := by
  obtain ⟨more, after, hrest, hlong⟩ : ∃ more after, rest = more ++ after ∧
      IsLongest isBlank more after :=
    ⟨_, _, List.takeWhile_append_dropWhile.symm, isLongest_takeWhile isBlank rest⟩
  have hr : l.cursor.rest = (ch :: more) ++ after := by rw [hr, hrest]; rfl
  have hall := transcript_of_blanks hs hr
    ⟨⟨List.forall_mem_cons.mpr ⟨hb, hlong.all⟩, hlong.stops⟩, by simp⟩
  cases more with
  | nil => exact hall
  | cons d more =>
    have hlater := transcript_of_blanks (l := l.pass [ch]) (hs.pass hr)
      (Cursor.rest_pass hr) ⟨hlong, by simp⟩
    rw [hall, hlater]
    simp [pass, onCursor, ← Cursor.pass_append]

theorem Reads.transcript_eq (h : Reads strict c t) {l : Lexer} (hs : l.cursor.StandsIn source)
    (hc : l.cursor = c) (hl : l.isStrict = strict) : l.transcript = t := by
  induction h generalizing l with
  | done hr => exact Lexer.transcript_of_end (hc ▸ hr)
  | blank hr hb _ ih =>
    subst hc
    rw [Lexer.transcript_of_blank hs hr hb]
    exact ih (hs.pass hr) rfl hl
  | piece hr hf _ ih =>
    subst hc hl
    rw [Lexer.transcript_eq hs hr hf, ih]
    · simpa using hs.pass hr
    · simp
    · simp

end ScriptLex
