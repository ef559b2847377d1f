import ScriptLex.Command.Failure
import ScriptLex.Config
import ScriptLex.Files.Access

/-!
# Loading and saving the configuration
-/

namespace ScriptLex

structure UserDirectories where
  home? : Option String := none
  settings? : Option String := none
deriving DecidableEq, Repr

namespace Config

def searchPaths (d : UserDirectories) : List String :=
  ["arjit.toml"] ++ (d.home?.map (· ++ "/.config/arjit/arjit.toml")).toList ++
    (d.settings?.map (· ++ "/arjit/arjit.toml")).toList

variable {m : Type → Type} [Monad m] [FileAccess m]

def loadFrom (path : String) : m (Except Failure Config) := do
  if ← FileAccess.pathExists path then
    match ← FileAccess.readText path with
    | .error cause => return .error (.file cause)
    | .ok text =>
      match parse? text with
      | none => return .error .malformedConfiguration
      | some config => return .ok config
  else
    return .error (.configurationNotFound path)

/-- The configuration at the first of the paths that exists, or the default one. -/
def loadFirst : List String → m (Except Failure Config)
  | [] => return .ok {}
  | path :: paths => do if ← FileAccess.pathExists path then loadFrom path else loadFirst paths

def load (d : UserDirectories) : Option String → m (Except Failure Config)
  | some path => loadFrom path
  | none => loadFirst (searchPaths d)

def save (c : Config) (path : String) : m (Except FileError Unit) := FileAccess.save path c.write

end Config
end ScriptLex
