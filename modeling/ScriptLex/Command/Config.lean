import ScriptLex.Command.Basic
import ScriptLex.Command.Settings

/-!
# The config command

Prints the configuration in force, or writes it to a file.
-/

namespace ScriptLex

structure ConfigCommand where
  writeTo? : Option String := none
deriving DecidableEq, Repr

namespace ConfigCommand

def wrote (path : String) : Log.Event where
  severity := .info
  message := "wrote configuration"
  fields := [("path", path)]

def steps {m : Type → Type} [Monad m] [FileAccess m] (c : ConfigCommand) (config : Config) :
    CommandM m Unit := do
  match c.writeTo? with
  | none => CommandM.print config.write
  | some path =>
    match ← (config.save path : m _) with
    | .ok () => CommandM.log [wrote path]
    | .error cause => throw (.file cause)

def run {m : Type → Type} [Monad m] [FileAccess m] (c : ConfigCommand) (config : Config) :
    m Execution :=
  (c.steps config).execute

end ConfigCommand
end ScriptLex
