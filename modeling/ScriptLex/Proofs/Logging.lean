import ScriptLex.Program
import ScriptLex.Proofs.Precedence
import ScriptLex.Proofs.Settings

/-!
# Logging changes no result

How much is logged and whether it is coloured is settled once the configuration
is loaded, and nothing that a command does depends on it. Two runs that differ
only there do the same up to the last step, in which the log lines are chosen
from the same events.
-/

namespace ScriptLex

-- ---------------------------------------------------------------------------
-- Commands on different files
-- ---------------------------------------------------------------------------

namespace LexCommand

variable {c : LexCommand} {tree tree' : FileTree}

def SameSource (c : LexCommand) (tree tree' : FileTree) : Prop :=
  ∀ path, c.input = .file path → tree.readText path = tree'.readText path

theorem exists_carriedOut_printTokens (lexingOptions : Options) (format : OutputFormat)
    (source : String) (traces : Traces) :
    ∃ result, ∀ tree,
      (printTokens (m := StateM FileTree) lexingOptions format source).carriedOut traces tree =
        (result, tree) := by
  cases hlex : lexWith source lexingOptions with
  | error e => exact ⟨_, carriedOut_printTokens_error hlex format traces⟩
  | ok lexed => exact ⟨_, carriedOut_printTokens hlex format traces⟩

theorem SameSource.exists_carriedOut (h : c.SameSource tree tree') (lexingOptions : Options)
    (format : OutputFormat) :
    ∃ result, ∀ t, t = tree ∨ t = tree' →
      (readSource (m := StateM FileTree) c.input >>=
        printTokens lexingOptions format).carriedOut {} t = (result, t) := by
  cases hinput : c.input with
  | inline text =>
    obtain ⟨result, hresult⟩ := exists_carriedOut_printTokens lexingOptions format text {}
    refine ⟨result, fun t _ => ?_⟩
    rw [CommandM.carriedOut_bind_ok (carriedOut_readSource (.inline text) {}), hresult]
  | file path =>
    have hsame : ∀ t, t = tree ∨ t = tree' → t.readText path = tree.readText path := by
      rintro t (rfl | rfl)
      · rfl
      · exact (h path hinput).symm
    cases hread : tree.readText path with
    | error cause =>
      refine ⟨_, fun t ht => CommandM.carriedOut_bind_error
        (carriedOut_readSource_error ((hsame t ht).trans hread) {}) _⟩
    | ok text =>
      obtain ⟨result, hresult⟩ := exists_carriedOut_printTokens lexingOptions format text {}
      refine ⟨result, fun t ht => ?_⟩
      rw [CommandM.carriedOut_bind_ok
        (carriedOut_readSource (.file ((hsame t ht).trans hread)) {}), hresult]

theorem SameSource.exists_run (h : c.SameSource tree tree') (config : Config) :
    ∃ x, (c.run (m := StateM FileTree) config).run tree = (x, tree) ∧
      (c.run (m := StateM FileTree) config).run tree' = (x, tree') := by
  cases hoptions : c.options config with
  | error e => exact ⟨⟨.error e, "", []⟩, by rw [run, steps, hoptions]; exact ⟨rfl, rfl⟩⟩
  | ok lexingOptions =>
    cases hformat : c.outputFormat config with
    | error e =>
      exact ⟨⟨.error e, "", []⟩, by rw [run, steps, hoptions, hformat]; exact ⟨rfl, rfl⟩⟩
    | ok format =>
      obtain ⟨⟨result, written, events⟩, hresult⟩ := h.exists_carriedOut lexingOptions format
      have hrun (t : FileTree) (ht : t = tree ∨ t = tree') :
          (c.run (m := StateM FileTree) config).run t = (⟨result, written, events⟩, t) :=
        CommandM.run_execute ((carriedOut_steps hoptions hformat {} t).trans (hresult t ht))
      exact ⟨_, hrun tree (.inl rfl), hrun tree' (.inr rfl)⟩

end LexCommand

-- ---------------------------------------------------------------------------
-- Ends of runs
-- ---------------------------------------------------------------------------

namespace Finished

inductive Reports (f : Finished) : Prop where
  | success (hcode : f.exitCode = 0) (hreport : f.report = "")
  | failure (e : Failure) (hcode : f.exitCode = 1) (hreport : f.report = e.shown)

/-- Two runs end alike: they may differ in which events they show, and in colours. -/
structure EndsLike (f f' : Finished) : Prop where
  exitCode : f.exitCode = f'.exitCode
  stdout : f.stdout = f'.stdout
  events : f.events = f'.events
  report : f.report = f'.report
  reports : f.Reports

end Finished

namespace Program

theorem endsLike_failed (e : Failure) : (failed e).EndsLike (failed e) :=
  ⟨rfl, rfl, rfl, rfl, .failure e rfl rfl⟩

theorem endsLike_ofExecution (x : Execution) (verbose coloured verbose' coloured' : Bool) :
    (ofExecution x verbose coloured).EndsLike (ofExecution x verbose' coloured') := by
  obtain ⟨result, written, events⟩ := x
  cases result with
  | ok => exact ⟨rfl, rfl, rfl, rfl, .success rfl rfl⟩
  | error e => exact ⟨rfl, rfl, rfl, rfl, .failure e rfl rfl⟩

/-- What two runs find: the same files, or files from which they load configurations that differ
in nothing but how much is logged, for the same source to be lexed. -/
inductive FindsAlike (dirs : UserDirectories) (i : CommandLine.Invocation) (tree : FileTree) :
    FileTree → Prop where
  | same : FindsAlike dirs i tree tree
  | verbosity (hcommand : i.command = .lex c)
      (hload : (Config.load (m := StateM FileTree) dirs i.common.config?).run tree =
        (.ok config, tree))
      (hload' : (Config.load (m := StateM FileTree) dirs i.common.config?).run tree' =
        (.ok { config with verbose }, tree'))
      (hsource : c.SameSource tree tree') :
      FindsAlike dirs i tree tree'

variable {dirs : UserDirectories} {i i' : CommandLine.Invocation} {tree tree' : FileTree}

theorem run_invoke_error
    (hload : (Config.load (m := StateM FileTree) dirs i.common.config?).run tree =
      (.error e, tree)) :
    (invoke (m := StateM FileTree) dirs i).run tree = (failed e, tree) := by
  rw [invoke, StateT.run_bind, hload]
  rfl

theorem run_invoke
    (hload : (Config.load (m := StateM FileTree) dirs i.common.config?).run tree =
      (.ok config, tree))
    (hexecute : (execute (m := StateM FileTree) config i.command).run tree = (x, after)) :
    (invoke (m := StateM FileTree) dirs i).run tree =
      (ofExecution x (i.common.verbose || config.verbose) (!i.common.noColor), after) := by
  rw [invoke, StateT.run_bind, hload]
  change StateT.run (execute (m := StateM FileTree) config i.command >>= fun x =>
    pure (ofExecution x (i.common.verbose || config.verbose) (!i.common.noColor))) tree = _
  rw [StateT.run_bind, hexecute]
  rfl

theorem invoke_same (hcommand : i.command = i'.command)
    (hconfig : i.common.config? = i'.common.config?) (tree : FileTree) :
    ∃ f f' after, (invoke (m := StateM FileTree) dirs i).run tree = (f, after) ∧
      (invoke (m := StateM FileTree) dirs i').run tree = (f', after) ∧ f.EndsLike f' := by
  rcases hload : (Config.load (m := StateM FileTree) dirs i.common.config?).run tree with
    ⟨loaded, found⟩
  obtain rfl : found = tree := by
    rw [← Config.load_keeps dirs i.common.config? tree, hload]
  have hload' := hload
  rw [hconfig] at hload'
  cases loaded with
  | error e =>
    exact ⟨_, _, found, run_invoke_error hload, run_invoke_error hload', endsLike_failed e⟩
  | ok config =>
    rcases hexecute : (execute (m := StateM FileTree) config i.command).run found with ⟨x, after⟩
    exact ⟨_, _, after, run_invoke hload hexecute, run_invoke hload' (hcommand ▸ hexecute),
      endsLike_ofExecution x _ _ _ _⟩

theorem invoke_verbosity (hi : i.command = .lex c) (hi' : i'.command = .lex c)
    (hload : (Config.load (m := StateM FileTree) dirs i.common.config?).run tree =
      (.ok config, tree))
    (hload' : (Config.load (m := StateM FileTree) dirs i'.common.config?).run tree' =
      (.ok { config with verbose }, tree'))
    (hsource : c.SameSource tree tree') :
    ∃ f f', (invoke (m := StateM FileTree) dirs i).run tree = (f, tree) ∧
      (invoke (m := StateM FileTree) dirs i').run tree' = (f', tree') ∧ f.EndsLike f' := by
  obtain ⟨x, hrun, hrun'⟩ := hsource.exists_run config
  have hsame : c.run (m := StateM FileTree) { config with verbose } = c.run config :=
    LexCommand.run_congr rfl rfl
  rw [← hsame] at hrun'
  exact ⟨_, _, run_invoke hload (by rw [hi]; exact hrun),
    run_invoke hload' (by rw [hi']; exact hrun'), endsLike_ofExecution x _ _ _ _⟩

theorem run_of_read (hread : CommandLine.read args env = .ok i) :
    run (m := StateM FileTree) args env dirs = invoke dirs i := by
  rw [run, hread]

/-- Command lines that differ in nothing but how much is logged and in its colours, on the same
files or on configurations that differ there: the runs end with the same status, the same output,
the same report behind the log, and the same files. -/
theorem run_logging_apart
    (hread : CommandLine.read args env = .ok i) (hread' : CommandLine.read args' env' = .ok i')
    (hcommand : i.command = i'.command) (hconfig : i.common.config? = i'.common.config?)
    (hfinds : FindsAlike dirs i tree tree') :
    ∃ f f' after after', (run (m := StateM FileTree) args env dirs).run tree = (f, after) ∧
      (run (m := StateM FileTree) args' env' dirs).run tree' = (f', after') ∧
      f.EndsLike f' ∧
      f.stderr = Text.unlines f.logLines ++ f.report ∧
      f'.stderr = Text.unlines f'.logLines ++ f.report ∧
      (tree = tree' → after = after') ∧ (tree ≠ tree' → after = tree ∧ after' = tree') := by
  rw [run_of_read hread, run_of_read hread']
  cases hfinds with
  | same =>
    obtain ⟨f, f', after, hrun, hrun', hends⟩ := invoke_same hcommand hconfig tree
    exact ⟨f, f', after, after, hrun, hrun', hends, rfl, by rw [hends.report]; rfl, fun _ => rfl,
      fun h => absurd rfl h⟩
  | verbosity hi hload hload' hsource =>
    obtain ⟨f, f', hrun, hrun', hends⟩ :=
      invoke_verbosity hi (hcommand ▸ hi) hload (hconfig ▸ hload') hsource
    exact ⟨f, f', tree, tree', hrun, hrun', hends, rfl, by rw [hends.report]; rfl, id,
      fun _ => ⟨rfl, rfl⟩⟩

theorem run_logging_apart_quiet_and_verbose :
    let treeOf (settings : String) : FileTree :=
      { root := .directory [("a.arj", .file (.text "let @")),
          ("arjit.toml", .file (.text settings))] }
    let args := ["lex", "-c", "arjit.toml", "a.arj"]
    let args' := ["--verbose", "lex", "--no-color", "a.arj"]
    let env' : CommandLine.Environment := { config? := some "arjit.toml" }
    let tree := treeOf "verbose = false\noutput.format = \"json\""
    let tree' := treeOf "verbose = true\noutput.format = \"json\""
    ∃ f f', (run (m := StateM FileTree) args {} {}).run tree = (f, tree) ∧
      (run (m := StateM FileTree) args' env' {}).run tree' = (f', tree') ∧ f.EndsLike f' ∧
      f'.stderr = Text.unlines f'.logLines ++ f.report := by
  intro treeOf args args' env' tree tree'
  let c : LexCommand := { input := .file "a.arj" }
  have hread : CommandLine.read args {} =
      .ok ⟨⟨false, some "arjit.toml", false⟩, .lex c⟩ := by decide +kernel
  have hread' : CommandLine.read args' env' =
      .ok ⟨⟨true, some "arjit.toml", true⟩, .lex c⟩ := by decide +kernel
  have hload : (Config.load (m := StateM FileTree) {} (some "arjit.toml")).run tree =
      (.ok { format := "json" }, tree) :=
    Config.run_loadFrom
      (by decide +kernel : tree.readText "arjit.toml" =
        .ok "verbose = false\noutput.format = \"json\"")
      (by decide +kernel)
  have hload' : (Config.load (m := StateM FileTree) {} (some "arjit.toml")).run tree' =
      (.ok { verbose := true, format := "json" }, tree') :=
    Config.run_loadFrom
      (by decide +kernel : tree'.readText "arjit.toml" =
        .ok "verbose = true\noutput.format = \"json\"")
      (by decide +kernel)
  have hsource : c.SameSource tree tree' := by
    rintro path ⟨⟩
    decide +kernel
  have hne : tree ≠ tree' := by
    intro h
    have htext := congrArg (·.readText "arjit.toml") h
    revert htext
    decide +kernel
  obtain ⟨f, f', after, after', hrun, hrun', hends, -, hstderr, -, hfiles⟩ :=
    run_logging_apart hread hread' rfl rfl (.verbosity rfl hload hload' hsource)
  obtain ⟨rfl, rfl⟩ := hfiles hne
  exact ⟨f, f', hrun, hrun', hends, hstderr⟩

end Program
end ScriptLex
