import Mathlib.Data.List.Forall2
import ScriptLex.Command.Lex
import ScriptLex.Files.Tree

/-!
# The lex command, stage by stage

`Settles` says how the command ends and what it has printed by then, one rule
for the stage that decides. A rule asks nothing of the stages behind it. The
command as it runs does what the rules say and no more.
-/

namespace ScriptLex

-- ---------------------------------------------------------------------------
-- What is asked for
-- ---------------------------------------------------------------------------

namespace LexCommand

variable {c : LexCommand} {config : Config} {tree : FileTree}

/-- The mode that flags and configuration ask for, or the text that names none. -/
inductive AsksFor (c : LexCommand) (config : Config) : Except Mode.Unknown Mode → Prop where
  | lenientFlag (hlenient : c.lenient = true) : AsksFor c config (.ok .lenient)
  | strictFlag (hlenient : c.lenient = false) (hstrict : c.strict = true) :
      AsksFor c config (.ok .strict)
  | configured (hlenient : c.lenient = false) (hstrict : c.strict = false)
      (hmode : config.mode = mode.name) : AsksFor c config (.ok mode)
  | unknown (hlenient : c.lenient = false) (hstrict : c.strict = false)
      (hmode : ∀ mode : Mode, config.mode ≠ mode.name) : AsksFor c config (.error ⟨config.mode⟩)

theorem parse?_name (mode : Mode) : Mode.parse? mode.name = .ok mode := by
  cases mode <;> rfl

theorem parse?_unknown (h : ∀ mode : Mode, text ≠ mode.name) :
    Mode.parse? text = .error ⟨text⟩ := by
  rw [Mode.parse?, if_neg (h .strict), if_neg (h .lenient)]

theorem AsksFor.options_eq (h : c.AsksFor config asked) :
    c.options config = (asked.mapError .unknownMode).map fun mode =>
      { mode, emitEnd := c.emitEnd || config.emitEnd } := by
  cases h with
  | lenientFlag hlenient => simp [options, hlenient]; rfl
  | strictFlag hlenient hstrict => simp [options, hlenient, hstrict]; rfl
  | configured hlenient hstrict hmode =>
    simp [options, hlenient, hstrict, hmode, parse?_name]
    rfl
  | unknown hlenient hstrict hmode =>
    simp [options, hlenient, hstrict, parse?_unknown hmode]
    rfl

theorem exists_asksFor (c : LexCommand) (config : Config) : ∃ asked, c.AsksFor config asked := by
  cases hlenient : c.lenient with
  | true => exact ⟨_, .lenientFlag hlenient⟩
  | false =>
    cases hstrict : c.strict with
    | true => exact ⟨_, .strictFlag hlenient hstrict⟩
    | false =>
      by_cases hmode : ∃ mode : Mode, config.mode = mode.name
      · obtain ⟨mode, hmode⟩ := hmode
        exact ⟨_, .configured hlenient hstrict hmode⟩
      · exact ⟨_, .unknown hlenient hstrict fun mode he => hmode ⟨mode, he⟩⟩

end LexCommand

namespace OutputFormat

def name : OutputFormat → String
  | text => "text"
  | json => "json"

/-- The text is the name of the format; any of its letters may be a capital one. -/
def IsNamed (format : OutputFormat) (text : String) : Prop :=
  List.Forall₂ (fun c letter => c = letter ∨ c = letter.toUpper) text.toList format.name.toList

theorem eq_or_eq_toUpper_toLower (c : Char) : c = c.toLower ∨ c = c.toLower.toUpper := by
  by_cases hcapital : c.val ≥ 'A'.val ∧ c.val ≤ 'Z'.val
  · right
    have hall : ∀ n < 91, 65 ≤ n → Char.ofNat n = (Char.ofNat n).toLower.toUpper := by decide
    have hlow : 65 ≤ c.toNat := UInt32.le_iff_toNat_le.mp hcapital.1
    have hhigh : c.toNat ≤ 90 := UInt32.le_iff_toNat_le.mp hcapital.2
    simpa using hall c.toNat (Nat.lt_succ_of_le hhigh) hlow
  · left
    have hlower : c.toLower = c := dif_neg hcapital
    exact hlower.symm

theorem map_toLower_eq_iff {letters : List Char}
    (hsmall : ∀ c ∈ letters, c.toLower = c ∧ c.toUpper.toLower = c) (cs : List Char) :
    cs.map Char.toLower = letters ↔
      List.Forall₂ (fun c letter => c = letter ∨ c = letter.toUpper) cs letters := by
  constructor
  · rintro rfl
    rw [List.forall₂_map_right_iff, List.forall₂_same]
    exact fun c _ => eq_or_eq_toUpper_toLower c
  · intro h
    induction h with
    | nil => rfl
    | cons hc _ ih =>
      obtain ⟨hletter, hsmall⟩ := List.forall_mem_cons.mp hsmall
      rw [List.map_cons, ih hsmall]
      rcases hc with rfl | rfl
      · rw [hletter.1]
      · rw [hletter.2]

theorem isNamed_iff (format : OutputFormat) (text : String) :
    format.IsNamed text ↔ ofName? text = some format := by
  have hsmall (format : OutputFormat) :
      ∀ c ∈ format.name.toList, c.toLower = c ∧ c.toUpper.toLower = c := by
    cases format <;> simp [name]
  rw [IsNamed, ← map_toLower_eq_iff (hsmall format), ofName?]
  have hjson : "json".toList ≠ "text".toList := by decide
  cases format with
  | text => simp [name]
  | json =>
    constructor
    · intro h
      simp only [show text.toList.map Char.toLower = "json".toList from h, if_neg hjson, if_true]
    · intro h
      split at h
      · contradiction
      · split at h
        · assumption
        · contradiction

end OutputFormat

-- ---------------------------------------------------------------------------
-- Commands on a file tree
-- ---------------------------------------------------------------------------

namespace CommandM

variable {α β : Type}

def carriedOut (command : CommandM (StateM FileTree) α) (traces : Traces) (tree : FileTree) :
    (Except Failure α × Traces) × FileTree :=
  ((ExceptT.run command).run traces).run tree

theorem carriedOut_liftM {x : StateM FileTree α} (h : x.run tree = (a, after)) (traces : Traces) :
    carriedOut (liftM x) traces tree = ((.ok a, traces), after) := by
  have hlift : carriedOut (liftM x) traces tree =
      ((.ok (x.run tree).1, traces), (x.run tree).2) := rfl
  rw [hlift, h]

theorem carriedOut_bind_ok {x : CommandM (StateM FileTree) α}
    (h : x.carriedOut traces tree = ((.ok a, traces'), tree'))
    (f : α → CommandM (StateM FileTree) β) :
    (x >>= f).carriedOut traces tree = (f a).carriedOut traces' tree' := by
  rw [carriedOut] at h
  rw [carriedOut, ExceptT.run_bind, StateT.run_bind, StateT.run_bind, h]
  rfl

theorem carriedOut_bind_error {x : CommandM (StateM FileTree) α}
    (h : x.carriedOut traces tree = ((.error e, traces'), tree'))
    (f : α → CommandM (StateM FileTree) β) :
    (x >>= f).carriedOut traces tree = ((.error e, traces'), tree') := by
  rw [carriedOut] at h
  rw [carriedOut, ExceptT.run_bind, StateT.run_bind, StateT.run_bind, h]
  rfl

theorem run_execute {command : CommandM (StateM FileTree) Unit}
    (h : command.carriedOut {} tree = ((result, ⟨written, events⟩), tree')) :
    command.execute.run tree = (⟨result, written, events⟩, tree') := by
  rw [carriedOut] at h
  rw [execute, StateT.run_bind, h]
  rfl

end CommandM

inductive SourceInput.Holds (tree : FileTree) : SourceInput → String → Prop where
  | inline (text : String) : Holds tree (.inline text) text
  | file (hread : tree.readText path = .ok text) : Holds tree (.file path) text

-- ---------------------------------------------------------------------------
-- Stages
-- ---------------------------------------------------------------------------

namespace LexCommand

variable {c : LexCommand} {config : Config} {tree : FileTree} {lexingOptions : Options}

def formatName (c : LexCommand) (config : Config) : String := c.format?.getD config.format

/-- How the command ends and what it has printed by then. -/
inductive Settles (c : LexCommand) (config : Config) (tree : FileTree) :
    Except Failure Unit → String → Prop where
  | mode (hmode : c.AsksFor config (.error unknown)) :
      Settles c config tree (.error (.unknownMode unknown)) ""
  | format (hmode : c.AsksFor config (.ok mode))
      (hformat : ∀ format : OutputFormat, ¬ format.IsNamed (c.formatName config)) :
      Settles c config tree (.error (.unknownFormat (c.formatName config))) ""
  | reading (hmode : c.AsksFor config (.ok mode))
      (hformat : OutputFormat.IsNamed format (c.formatName config))
      (hinput : c.input = .file path) (hread : tree.readText path = .error cause) :
      Settles c config tree (.error (.unreadableSource path cause)) ""
  | lexing (hmode : c.AsksFor config (.ok mode))
      (hformat : OutputFormat.IsNamed format (c.formatName config))
      (hsource : c.input.Holds tree source)
      (hlex : lexWith source ⟨mode, c.emitEnd || config.emitEnd⟩ = .error e) :
      Settles c config tree (.error (.lexical e source)) ""
  | done (hmode : c.AsksFor config (.ok mode))
      (hformat : OutputFormat.IsNamed format (c.formatName config))
      (hsource : c.input.Holds tree source)
      (hlex : lexWith source ⟨mode, c.emitEnd || config.emitEnd⟩ = .ok lexed) :
      Settles c config tree (.ok ()) (Token.write lexed.tokens format)

theorem options_ok (h : c.AsksFor config (.ok mode)) :
    c.options config = .ok ⟨mode, c.emitEnd || config.emitEnd⟩ := h.options_eq

theorem options_error (h : c.AsksFor config (.error unknown)) :
    c.options config = .error (.unknownMode unknown) := h.options_eq

theorem outputFormat_ok (h : OutputFormat.IsNamed format (c.formatName config)) :
    c.outputFormat config = .ok format := by
  rw [OutputFormat.isNamed_iff] at h
  simp only [outputFormat, ← formatName.eq_1, h]

theorem outputFormat_error
    (h : ∀ format : OutputFormat, ¬ format.IsNamed (c.formatName config)) :
    c.outputFormat config = .error (.unknownFormat (c.formatName config)) := by
  have hnone : OutputFormat.ofName? (c.formatName config) = none := by
    apply Option.eq_none_iff_forall_ne_some.mpr
    intro format hsome
    exact h format ((OutputFormat.isNamed_iff format _).mpr hsome)
  simp only [outputFormat, ← formatName.eq_1, hnone]

theorem carriedOut_readText (h : tree.readText path = r) (traces : Traces) :
    CommandM.carriedOut (liftM (FileAccess.readText path : StateM FileTree _)) traces tree =
      ((.ok r, traces), tree) :=
  CommandM.carriedOut_liftM (by rw [← h]; rfl) traces

theorem carriedOut_readSource {source : SourceInput} (h : source.Holds tree text)
    (traces : Traces) :
    (readSource (m := StateM FileTree) source).carriedOut traces tree =
      ((.ok text, traces), tree) := by
  cases h with
  | inline => rfl
  | file hread =>
    rw [readSource, CommandM.carriedOut_bind_ok (carriedOut_readText hread traces)]
    rfl

theorem carriedOut_readSource_error (h : tree.readText path = .error cause) (traces : Traces) :
    (readSource (m := StateM FileTree) (.file path)).carriedOut traces tree =
      ((.error (.unreadableSource path cause), traces), tree) := by
  rw [readSource, CommandM.carriedOut_bind_ok (carriedOut_readText h traces)]
  rfl

theorem carriedOut_printTokens (h : lexWith source lexingOptions = .ok lexed)
    (format : OutputFormat) (traces : Traces) (tree : FileTree) :
    (printTokens (m := StateM FileTree) lexingOptions format source).carriedOut traces tree =
      ((.ok (), ⟨traces.written ++ Token.write lexed.tokens format,
        traces.events ++ [started lexingOptions source] ++ lexed.diagnostics.map noticed ++
          [finished lexingOptions lexed] ++ lexed.diagnostics.map warned⟩), tree) := by
  rw [printTokens, h]
  rfl

theorem carriedOut_printTokens_error (h : lexWith source lexingOptions = .error e)
    (format : OutputFormat) (traces : Traces) (tree : FileTree) :
    (printTokens (m := StateM FileTree) lexingOptions format source).carriedOut traces tree =
      ((.error (.lexical e source), ⟨traces.written,
        traces.events ++ [started lexingOptions source]⟩), tree) := by
  rw [printTokens, h]
  rfl

theorem carriedOut_steps (hoptions : c.options config = .ok lexingOptions)
    (hformat : c.outputFormat config = .ok format) (traces : Traces) (tree : FileTree) :
    (c.steps (m := StateM FileTree) config).carriedOut traces tree =
      (readSource c.input >>= printTokens lexingOptions format).carriedOut traces tree := by
  rw [steps, hoptions, hformat]
  rfl

theorem Settles.run_eq (h : c.Settles config tree result written) :
    ∃ events, (c.run (m := StateM FileTree) config).run tree =
      (⟨result, written, events⟩, tree) := by
  cases h with
  | mode hmode =>
    refine ⟨[], ?_⟩
    rw [run, steps, options_error hmode]
    rfl
  | format hmode hformat =>
    refine ⟨[], ?_⟩
    rw [run, steps, options_ok hmode, outputFormat_error hformat]
    rfl
  | reading hmode hformat hinput hread =>
    have hsteps := carriedOut_steps (options_ok hmode) (outputFormat_ok hformat) {} tree
    rw [hinput, CommandM.carriedOut_bind_error (carriedOut_readSource_error hread {})] at hsteps
    exact ⟨_, CommandM.run_execute hsteps⟩
  | lexing hmode hformat hsource hlex =>
    have hsteps := carriedOut_steps (options_ok hmode) (outputFormat_ok hformat) {} tree
    rw [CommandM.carriedOut_bind_ok (carriedOut_readSource hsource {}),
      carriedOut_printTokens_error hlex] at hsteps
    exact ⟨_, CommandM.run_execute hsteps⟩
  | done hmode hformat hsource hlex =>
    have hsteps := carriedOut_steps (options_ok hmode) (outputFormat_ok hformat) {} tree
    rw [CommandM.carriedOut_bind_ok (carriedOut_readSource hsource {}),
      carriedOut_printTokens hlex, String.empty_append] at hsteps
    exact ⟨_, CommandM.run_execute hsteps⟩

theorem exists_settles (c : LexCommand) (config : Config) (tree : FileTree) :
    ∃ result written, c.Settles config tree result written := by
  obtain ⟨asked, hmode⟩ := exists_asksFor c config
  cases asked with
  | error unknown => exact ⟨_, _, .mode hmode⟩
  | ok mode =>
    by_cases hnamed : ∃ format : OutputFormat, format.IsNamed (c.formatName config)
    · obtain ⟨format, hformat⟩ := hnamed
      have hlexed (source : String) (hsource : c.input.Holds tree source) :
          ∃ result written, c.Settles config tree result written := by
        cases hlex : lexWith source ⟨mode, c.emitEnd || config.emitEnd⟩ with
        | error e => exact ⟨_, _, .lexing hmode hformat hsource hlex⟩
        | ok lexed => exact ⟨_, _, .done hmode hformat hsource hlex⟩
      cases hinput : c.input with
      | inline text =>
        apply hlexed text
        rw [hinput]
        exact .inline text
      | file path =>
        cases hread : tree.readText path with
        | error cause => exact ⟨_, _, .reading hmode hformat hinput hread⟩
        | ok text =>
          apply hlexed text
          rw [hinput]
          exact .file hread
    · exact ⟨_, _, .format hmode fun format hformat => hnamed ⟨format, hformat⟩⟩

theorem settles_iff (c : LexCommand) (config : Config) (tree : FileTree)
    (result : Except Failure Unit) (written : String) :
    c.Settles config tree result written ↔
      ∃ events, (c.run (m := StateM FileTree) config).run tree =
        (⟨result, written, events⟩, tree) := by
  constructor
  · exact Settles.run_eq
  · rintro ⟨events, hrun⟩
    obtain ⟨result', written', hsettles⟩ := exists_settles c config tree
    obtain ⟨events', hrun'⟩ := hsettles.run_eq
    rw [hrun] at hrun'
    cases hrun'
    exact hsettles

theorem Settles.written_eq_empty (h : c.Settles config tree (.error e) written) :
    written = "" := by
  cases h <;> rfl

-- ---------------------------------------------------------------------------
-- Settings that do not matter
-- ---------------------------------------------------------------------------

theorem run_congr {config' : Config} (hoptions : c.options config = c.options config')
    (hformat : c.outputFormat config = c.outputFormat config') :
    c.run (m := StateM FileTree) config = c.run config' := by
  rw [run, steps, hoptions, hformat]
  rfl

theorem options_of_flag (h : c.lenient = true ∨ c.strict = true) (mode : String) :
    c.options { config with mode } = c.options config := by
  cases hlenient : c.lenient with
  | true => simp [options, hlenient]
  | false =>
    have hstrict : c.strict = true := by simpa [hlenient] using h
    simp [options, hlenient, hstrict]

theorem outputFormat_of_argument (h : c.format? = some name) (format : String) :
    c.outputFormat { config with format } = c.outputFormat config := by
  simp [outputFormat, h]

theorem run_of_holds {a b : SourceInput} (ha : a.Holds tree text) (hb : b.Holds tree text)
    (c : LexCommand) (config : Config) :
    (run (m := StateM FileTree) { c with input := a } config).run tree =
      (run (m := StateM FileTree) { c with input := b } config).run tree := by
  cases hoptions : c.options config with
  | error e =>
    have ho (input : SourceInput) : options { c with input } config = .error e := hoptions
    rw [run, run, steps, steps, ho a, ho b]
    rfl
  | ok lexingOptions =>
    have ho (input : SourceInput) : options { c with input } config = .ok lexingOptions := hoptions
    cases hformat : c.outputFormat config with
    | error e =>
      have hf (input : SourceInput) : outputFormat { c with input } config = .error e := hformat
      rw [run, run, steps, steps, ho a, ho b, hf a, hf b]
      rfl
    | ok format =>
      have hf (input : SourceInput) : outputFormat { c with input } config = .ok format := hformat
      have hread {input : SourceInput} (h : input.Holds tree text) :
          (steps (m := StateM FileTree) { c with input } config).carriedOut {} tree =
            (printTokens lexingOptions format text).carriedOut {} tree := by
        rw [carriedOut_steps (ho input) (hf input)]
        exact CommandM.carriedOut_bind_ok (carriedOut_readSource h {}) _
      rw [run, run, CommandM.run_execute (hread ha), CommandM.run_execute (hread hb)]

/-- The command ends as the first stage that fails says, with nothing printed, or well, with all
of its output printed. Files stay as they are. What the command line settles is not looked up in
the configuration, and it does not matter whether a text is given inline or in a file. -/
theorem run_settles (c : LexCommand) (config : Config) (tree : FileTree) :
    ∃ x, (c.run (m := StateM FileTree) config).run tree = (x, tree) ∧
      (∀ result written, c.Settles config tree result written ↔
        result = x.result ∧ written = x.written) ∧
      (∀ e, x.output = .error e → x.written = "") ∧
      (c.lenient = true ∨ c.strict = true → ∀ mode,
        (c.run (m := StateM FileTree) { config with mode }).run tree = (x, tree)) ∧
      (c.format? ≠ none → ∀ format,
        (c.run (m := StateM FileTree) { config with format }).run tree = (x, tree)) ∧
      ∀ path text, c.input = .inline text → tree.readText path = .ok text →
        (run (m := StateM FileTree) { c with input := .file path } config).run tree =
          (x, tree) := by
  obtain ⟨result, written, hsettles⟩ := exists_settles c config tree
  obtain ⟨events, hrun⟩ := hsettles.run_eq
  refine ⟨_, hrun, fun result' written' => ?_, fun e he => ?_, fun hflag mode => ?_,
    fun hargument format => ?_, fun path text hinput hread => ?_⟩
  · rw [settles_iff, hrun]
    constructor
    · rintro ⟨events', h⟩
      cases h
      exact ⟨rfl, rfl⟩
    · rintro ⟨rfl, rfl⟩
      exact ⟨events, rfl⟩
  · cases result with
    | ok => contradiction
    | error e => exact hsettles.written_eq_empty
  · rw [run_congr (options_of_flag hflag mode) rfl, hrun]
  · obtain ⟨name, hname⟩ := Option.ne_none_iff_exists'.mp hargument
    have hsame : c.run (m := StateM FileTree) { config with format } = c.run config :=
      run_congr rfl (outputFormat_of_argument hname format)
    rw [hsame, hrun]
  · rw [run_of_holds (.file hread) (.inline text), ← hrun, ← hinput]

theorem run_settles_flags_before_configuration :
    let config : Config := { mode := "loud", emitEnd := true, format := "yaml" }
    let c : LexCommand :=
      { input := .inline "\"b", lenient := true, strict := true, format? := some "Json" }
    let unguided : LexCommand := { input := .file "missing", format? := some "yaml" }
    let tree : FileTree := { root := .directory [("a", .file (.text "\"b"))] }
    (∃ x, (c.run (m := StateM FileTree) config).run tree = (x, tree) ∧
      x.result = .ok () ∧ x.written = Token.write [.string "b", .endOfInput] .json ∧
      (c.run (m := StateM FileTree) { config with mode := "strict" }).run tree = (x, tree) ∧
      (c.run (m := StateM FileTree) { config with format := "text" }).run tree = (x, tree) ∧
      (run (m := StateM FileTree) { c with input := .file "a" } config).run tree = (x, tree)) ∧
    ∃ x, (unguided.run (m := StateM FileTree) config).run tree = (x, tree) ∧
      x.result = .error (.unknownMode ⟨"loud"⟩) ∧ x.written = "" := by
  intro config c unguided tree
  constructor
  · obtain ⟨x, hrun, hsettles, -, hmode, hformat, hfile⟩ := run_settles c config tree
    have hlex : lexWith "\"b" ⟨.lenient, true⟩ =
        .ok ⟨[.string "b", .endOfInput],
          [(Diagnostic.warning "string literal closed by end of input" ⟨0, 2, 1, 1⟩).withCode
            .openString]⟩ := by
      decide +kernel
    have hnamed : OutputFormat.IsNamed .json "Json" :=
      (OutputFormat.isNamed_iff _ _).mpr (by decide +kernel)
    obtain ⟨hresult, hwritten⟩ := (hsettles _ _).mp
      (.done (.lenientFlag rfl) hnamed (.inline "\"b") hlex)
    exact ⟨x, hrun, hresult.symm, hwritten.symm, hmode (.inl rfl) "strict",
      hformat (by decide) "text", hfile "a" "\"b" rfl (by decide +kernel)⟩
  · obtain ⟨x, hrun, hsettles, hfailed, -⟩ := run_settles unguided config tree
    have hunknown : ∀ mode : Mode, "loud" ≠ mode.name := by
      intro mode
      cases mode <;> decide
    obtain ⟨hresult, -⟩ := (hsettles _ _).mp (.mode (.unknown rfl rfl hunknown))
    refine ⟨x, hrun, hresult.symm, hfailed (.unknownMode ⟨"loud"⟩) ?_⟩
    rw [Execution.output, ← hresult]
    rfl

end LexCommand
end ScriptLex
