import ScriptLex.Command.Failure
import ScriptLex.Log

/-!
# Commands under way

A command prints, logs and may fail. A failure ends it and takes nothing back
of what it has printed by then.
-/

namespace ScriptLex

structure Traces where
  written : String := ""
  events : List Log.Event := []
deriving DecidableEq, Repr

/-- A command under way, on files that `m` gives access to. -/
abbrev CommandM (m : Type → Type) := ExceptT Failure (StateT Traces m)

structure Execution where
  result : Except Failure Unit
  written : String
  events : List Log.Event

namespace Execution

def output (x : Execution) : Except Failure String := x.result.map fun _ => x.written

end Execution

namespace CommandM

variable {m : Type → Type} [Monad m]

def print (text : String) : CommandM m Unit :=
  modify fun t => { t with written := t.written ++ text }

def log (events : List Log.Event) : CommandM m Unit :=
  modify fun t => { t with events := t.events ++ events }

def execute (command : CommandM m Unit) : m Execution := do
  let (result, traces) ← (ExceptT.run command).run {}
  return { result, written := traces.written, events := traces.events }

end CommandM
end ScriptLex
