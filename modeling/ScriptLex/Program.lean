import ScriptLex.Command.Line

/-!
# The program

From a command line to an exit status and what is printed. The log and the
report of a failure are kept apart until both are printed.
-/

namespace ScriptLex

structure Finished where
  exitCode : Nat
  stdout : String := ""
  /-- All events, whether they are shown or not. -/
  events : List Log.Event := []
  /-- What a failure tells the user. -/
  report : String := ""
  verbose : Bool := false
  coloured : Bool := true

namespace Finished

def logLines (f : Finished) : List String :=
  (f.events.filter (·.isShown f.verbose)).map (·.line f.coloured)

def stderr (f : Finished) : String := Text.unlines f.logLines ++ f.report

end Finished

namespace Program

def version : String := "0.0.3"

/-- A command line that cannot be understood ends with status 2 and runs nothing. -/
def stopped : CommandLine.Stop → Finished
  | .usage e => { exitCode := 2, report := "error: " ++ e.message ++ "\n" }
  | .version scope => { exitCode := 0, stdout := scope.title ++ " " ++ version ++ "\n" }

def failed (e : Failure) : Finished := { exitCode := 1, report := e.shown }

/-- What the command has printed stays on the standard output, also when it failed. -/
def ofExecution (x : Execution) (verbose coloured : Bool) : Finished :=
  match x.result with
  | .ok () => { exitCode := 0, stdout := x.written, events := x.events, verbose, coloured }
  | .error e => { failed e with stdout := x.written, events := x.events, verbose, coloured }

variable {m : Type → Type} [Monad m] [FileAccess m]

def execute (config : Config) : CommandLine.Command → m Execution
  | .lex c => c.run config
  | .config c => c.run config

def invoke (dirs : UserDirectories) (i : CommandLine.Invocation) : m Finished := do
  match ← Config.load dirs i.common.config? with
  | .error e => return failed e
  | .ok config =>
    let x ← execute config i.command
    return ofExecution x (i.common.verbose || config.verbose) (!i.common.noColor)

def run (args : List String) (env : CommandLine.Environment) (dirs : UserDirectories) :
    m Finished :=
  match CommandLine.read args env with
  | .error stop => return stopped stop
  | .ok invocation => invoke dirs invocation

end Program
end ScriptLex
