import ScriptLex.Proofs.Account
import ScriptLex.Proofs.Decoding
import ScriptLex.Proofs.Logging

/-!
# Warnings are lines of the log

A lenient run that ends well says of every warning what it is and where, on a
line of its own on the standard error. The source is quoted there, but only in
numbers and in escaped characters, so no text that it holds can end a line,
start another or change how the terminal shows it.
-/

namespace ScriptLex

-- ---------------------------------------------------------------------------
-- Lines
-- ---------------------------------------------------------------------------

theorem Text.splitOn_unlines {ls : List String} (hls : ∀ line ∈ ls, OneLine line) :
    (unlines ls).toList.splitOn '\n' = ls.map String.toList ++ [[]] := by
  induction ls with
  | nil => rfl
  | cons l ls ih =>
    obtain ⟨hl, hls⟩ := List.forall_mem_cons.mp hls
    have htext : (unlines (l :: ls)).toList = l.toList ++ '\n' :: (unlines ls).toList := by
      simp [unlines]
    rw [htext, List.splitOn_append_cons_self_of_not_mem hl, ih hls]
    rfl

def warnLabel (coloured : Bool) : String :=
  if coloured then "\x1b[33m WARN\x1b[0m " else " WARN "

theorem oneLine_warnLabel (coloured : Bool) : OneLine (warnLabel coloured) := by
  cases coloured <;> simp [warnLabel]

/-- The text has one line for each warning, in the order of the source, and nothing else. Apart
from the label no line has a control character. -/
structure LogsEach (source : String) (warnings : List Diagnostic) (coloured : Bool)
    (text : String) : Prop where
  text_eq : text = Text.unlines (warnings.map (warnLabel coloured ++ ·.summary))
  splitOn_eq : text.toList.splitOn '\n' =
    (warnings.map (warnLabel coloured ++ ·.summary)).map String.toList ++ [[]]
  summary_eq : ∀ d ∈ warnings, ∃ code, d.code = some code ∧ d.summary =
    s!"warning[{code.text}]: {d.message} at {d.span.line}:{d.span.column}"
  controlFree : ∀ d ∈ warnings, ControlFree d.summary.toList
  located : ∀ d ∈ warnings, d.Located source
  inOrder : warnings.Pairwise fun a b =>
    a.span.start < b.span.start ∧ a.span.stop ≤ b.span.start

-- ---------------------------------------------------------------------------
-- Warnings
-- ---------------------------------------------------------------------------

namespace Diagnostic

variable {d : Diagnostic} {code : Code} {text after : List Char}

theorem IsAbout.level_eq (h : d.IsAbout after text) : d.level = .warning := by
  cases h <;> rfl

/-- Digits and quoted characters are all that a message takes over from the source. -/
theorem IsAbout.controlFree_message (h : d.IsAbout after text) :
    ControlFree d.message.toList := by
  cases h with
  | foreign => exact .append (by decide) (controlFree_quotedChar _)
  | quote =>
    have hmessage : ControlFree "skipped quote not followed by a letter".toList := by decide
    exact hmessage
  | openString =>
    have hmessage : ControlFree "string literal closed by end of input".toList := by decide
    exact hmessage
  | wrapped n hdigits =>
    have hwords : ControlFree (String.ofList text).toList := by
      rw [String.toList_ofList]
      exact controlFree_of_isDigit hdigits
    exact .append (.append (.append (by decide) hwords) (by decide)) (controlFree_toString _)

theorem IsAbout.exists_code (h : d.IsAbout after text) :
    ∃ code, d.code = some code ∧ ControlFree code.text.toList := by
  cases h with
  | foreign | quote => exact ⟨.droppedInput, rfl, by decide⟩
  | wrapped => exact ⟨.wrappedInteger, rfl, by decide⟩
  | openString => exact ⟨.openString, rfl, by decide⟩

theorem summary_of_code (hcode : d.code = some code) :
    d.summary =
      s!"{d.level.name}[{code.text}]: {d.message} at {d.span.line}:{d.span.column}" := by
  simp only [summary, header, hcode, Span.place, toString, String.append_assoc]

theorem IsAbout.controlFree_summary (h : d.IsAbout after text) : ControlFree d.summary.toList := by
  obtain ⟨code, hcode, htext⟩ := h.exists_code
  have hlevel : ControlFree d.level.name.toList := by
    rw [h.level_eq]
    decide
  have hheader : ControlFree d.header.toList := by
    rw [header, hcode]
    exact .append (.append (.append (.append hlevel (by decide)) htext) (by decide))
      h.controlFree_message
  have hplace : ControlFree d.span.place.toList :=
    .append (.append (controlFree_toString _) (by decide)) (controlFree_toString _)
  exact .append (.append hheader (by decide)) hplace

end Diagnostic

theorem logsEach_of_lexWith {options : Options} (hoptions : options.isStrict = false)
    (h : lexWith source options = .ok lexed) (coloured : Bool) :
    LogsEach source lexed.diagnostics coloured
      (Text.unlines (lexed.diagnostics.map (warnLabel coloured ++ ·.summary))) := by
  have hs := Lexer.standsIn_start source options
  have hdiagnostics :
      lexed.diagnostics = (Lexer.start source options).calls.flatMap Call.warnings := by
    rw [lexWith_eq_calls (nonempty_of_lexWith h)] at h
    split at h
    · contradiction
    · cases h
      rfl
  have hlocated : ∀ d ∈ lexed.diagnostics, d.Located source := by
    rw [hdiagnostics]
    exact (located_of_transcript? (transcript?_eq (nonempty_of_lexWith h))).2
  have hcontrolFree : ∀ d ∈ lexed.diagnostics, ControlFree d.summary.toList := fun d hd => by
    obtain ⟨before, text, after, -, habout⟩ := hlocated d hd
    exact habout.controlFree_summary
  refine ⟨rfl, Text.splitOn_unlines fun line hline => ?_, fun d hd => ?_, hcontrolFree, hlocated,
    ?_⟩
  · obtain ⟨d, hd, rfl⟩ := List.mem_map.mp hline
    exact (oneLine_warnLabel coloured).append (hcontrolFree d hd).newline_notMem
  · obtain ⟨before, text, after, -, habout⟩ := hlocated d hd
    obtain ⟨code, hcode, -⟩ := habout.exists_code
    refine ⟨code, hcode, ?_⟩
    rw [Diagnostic.summary_of_code hcode, habout.level_eq]
    rfl
  · rw [hdiagnostics]
    exact Lexer.pairwise_warnings hs hoptions

-- ---------------------------------------------------------------------------
-- The log of a run
-- ---------------------------------------------------------------------------

namespace LexCommand

variable {c : LexCommand} {config : Config} {tree : FileTree}

theorem AsksFor.unique (h : c.AsksFor config (.ok mode)) (h' : c.AsksFor config asked) :
    asked = .ok mode := by
  have hoptions := h.options_eq.symm.trans h'.options_eq
  cases asked with
  | error unknown => contradiction
  | ok other =>
    cases hoptions
    rfl

/-- The warnings come last in the log. All else in it is for those who ask for more. -/
theorem run_of_lexed (hmode : c.AsksFor config (.ok mode))
    (hformat : OutputFormat.IsNamed format (c.formatName config))
    (hsource : c.input.Holds tree source)
    (hlex : lexWith source ⟨mode, c.emitEnd || config.emitEnd⟩ = .ok lexed) :
    ∃ details, (∀ e ∈ details, e.severity = .debug) ∧
      (c.run (m := StateM FileTree) config).run tree =
        (⟨.ok (), Token.write lexed.tokens format, details ++ lexed.diagnostics.map warned⟩,
          tree) := by
  have hsteps := carriedOut_steps (options_ok hmode) (outputFormat_ok hformat) {} tree
  rw [CommandM.carriedOut_bind_ok (carriedOut_readSource hsource {}),
    carriedOut_printTokens hlex, String.empty_append] at hsteps
  refine ⟨_, fun e he => ?_, CommandM.run_execute hsteps⟩
  simp only [List.nil_append, List.mem_append, List.mem_singleton, List.mem_map] at he
  rcases he with (rfl | ⟨d, -, rfl⟩) | rfl <;> rfl

theorem line_warned (coloured : Bool) (d : Diagnostic) :
    (warned d).line coloured = warnLabel coloured ++ d.summary := by
  have hend : "\x1b[33m WARN\x1b[0m " = Log.styled "33" " WARN" ++ " " := by decide
  cases coloured with
  | true =>
    simp only [warnLabel, hend]
    exact String.append_empty
  | false => exact String.append_empty

end LexCommand

namespace Program

variable {dirs : UserDirectories} {i : CommandLine.Invocation} {tree : FileTree}

theorem exitCode_of_error {x : Execution} (h : x.result = .error e) (verbose coloured : Bool) :
    (ofExecution x verbose coloured).exitCode = 1 := by
  rw [ofExecution, h]
  rfl

theorem stderr_of_lexed {details : List Log.Event} (hdetails : ∀ e ∈ details, e.severity = .debug)
    (written : String) (warnings : List Diagnostic) (coloured : Bool) :
    (ofExecution ⟨.ok (), written, details ++ warnings.map LexCommand.warned⟩ false
      coloured).stderr = Text.unlines (warnings.map (warnLabel coloured ++ ·.summary)) := by
  have hhidden : details.filter (·.isShown false) = [] := by
    refine List.filter_eq_nil_iff.mpr fun e he => ?_
    simp [Log.Event.isShown, hdetails e he]
  have hshown : (warnings.map LexCommand.warned).filter (·.isShown false) =
      warnings.map LexCommand.warned := by
    refine List.filter_eq_self.mpr fun e he => ?_
    obtain ⟨d, -, rfl⟩ := List.mem_map.mp he
    rfl
  simp only [ofExecution, Finished.stderr, Finished.logLines, List.filter_append, hhidden, hshown,
    List.nil_append, List.map_map, String.append_empty]
  congr 1
  exact List.map_congr_left fun d _ => LexCommand.line_warned coloured d

/-- When the lex command runs in lenient mode and ends well, and nobody asks for more, the
standard error is the log of its warnings. -/
theorem run_logs_warnings (hread : CommandLine.read args env = .ok i) (hi : i.command = .lex c)
    (hload : (Config.load (m := StateM FileTree) dirs i.common.config?).run tree =
      (.ok config, tree))
    (hmode : c.AsksFor config (.ok .lenient))
    (hquiet : (i.common.verbose || config.verbose) = false)
    (hrun : (run (m := StateM FileTree) args env dirs).run tree = (f, after))
    (hcode : f.exitCode = 0) :
    ∃ source lexed, c.input.Holds tree source ∧
      lexWith source ⟨.lenient, c.emitEnd || config.emitEnd⟩ = .ok lexed ∧
      LogsEach source lexed.diagnostics (!i.common.noColor) f.stderr := by
  rw [run_of_read hread] at hrun
  obtain ⟨result, written, hsettles⟩ := LexCommand.exists_settles c config tree
  -- A failure of the command ends the run with another status.
  have hfailure {e : Failure} (h : result = .error e) : False := by
    obtain ⟨events, hexecuted⟩ := hsettles.run_eq
    rw [run_invoke hload (by rw [hi]; exact hexecuted)] at hrun
    cases hrun
    rw [exitCode_of_error h] at hcode
    contradiction
  cases hsettles with
  | mode | format | reading | lexing => exact (hfailure rfl).elim
  | done hmode' hformat hsource hlex =>
    cases hmode.unique hmode'
    obtain ⟨details, hdetails, hexecuted⟩ := LexCommand.run_of_lexed hmode hformat hsource hlex
    rw [run_invoke hload (by rw [hi]; exact hexecuted), hquiet] at hrun
    cases hrun
    refine ⟨_, _, hsource, hlex, ?_⟩
    rw [stderr_of_lexed hdetails]
    exact logsEach_of_lexWith rfl hlex _

theorem run_logs_warnings_escapes :
    let source := "a\x1b[2J\n\x7f' 99999999999999999999 \" \"b\n WARN warning[W1001]: c"
    let tree : FileTree :=
      { root := .directory [("a.arj", .file (.text source)),
          ("arjit.toml", .file (.text "lex.mode = \"lenient\""))] }
    let args := ["lex", "-c", "arjit.toml", "a.arj"]
    ∃ f after lexed, (run (m := StateM FileTree) args {} {}).run tree = (f, after) ∧
      f.exitCode = 0 ∧ lexWith source ⟨.lenient, false⟩ = .ok lexed ∧
      lexed.diagnostics.length = 7 ∧ LogsEach source lexed.diagnostics true f.stderr := by
  intro source tree args
  have hread : CommandLine.read args {} =
      .ok ⟨⟨false, some "arjit.toml", false⟩, .lex { input := .file "a.arj" }⟩ := by
    decide +kernel
  have htext : tree.readText "arjit.toml" = .ok "lex.mode = \"lenient\"" := by decide +kernel
  have hload : (Config.load (m := StateM FileTree) {} (some "arjit.toml")).run tree =
      (.ok { mode := "lenient" }, tree) :=
    Config.run_loadFrom htext (by decide +kernel)
  have hcode : ((run (m := StateM FileTree) args {} {}).run tree).1.exitCode = 0 := by
    decide +kernel
  have hdiagnostics :
      (lexWith source ⟨.lenient, false⟩).map (·.diagnostics.length) = .ok 7 := by
    decide +kernel
  obtain ⟨held, lexed, hheld, hlex, hlogs⟩ :=
    run_logs_warnings hread rfl hload (.configured rfl rfl rfl) rfl rfl hcode
  obtain rfl : held = source := by
    cases hheld with
    | file hheld =>
      have hsource : tree.readText "a.arj" = .ok source := by decide +kernel
      exact Except.ok.inj (hheld.symm.trans hsource)
  refine ⟨_, _, lexed, rfl, hcode, hlex, ?_, hlogs⟩
  rw [show lexWith source ⟨.lenient, false⟩ = .ok lexed from hlex] at hdiagnostics
  exact Except.ok.inj hdiagnostics

end Program
end ScriptLex
