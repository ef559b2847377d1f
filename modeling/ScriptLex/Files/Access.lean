import ScriptLex.Files.Error
import ScriptLex.Files.Path

/-!
# Access to files

The few operations on files that the commands need, whatever carries them out.
-/

namespace ScriptLex

class FileAccess (m : Type → Type) where
  pathExists : String → m Bool
  isDirectory : String → m Bool
  readText : String → m (Except FileError String)
  writeText : String → String → m (Except FileError Unit)
  makeDirectory : String → m (Except FileError Unit)

namespace FileAccess

variable {m : Type → Type} [Monad m] [FileAccess m]

/-- Makes a directory. That it is there already does not matter. -/
def ensureDirectory (path : String) : m (Except FileError Unit) := do
  match ← makeDirectory path with
  | .ok () => return .ok ()
  | .error e => if ← isDirectory path then return .ok () else return .error e

/-- Makes a directory and those that are missing on the way to it. The shorter paths come first in
`missing`, which holds the directories above `path` from the nearest one on. -/
def makeDirectories (path : String) : List String → m (Except FileError Unit)
  | [] => ensureDirectory path
  | parent :: above => do
    match ← makeDirectory path with
    | .ok () => return .ok ()
    | .error .notFound =>
      match ← makeDirectories parent above with
      | .ok () => ensureDirectory path
      | .error e => return .error e
    | .error e => if ← isDirectory path then return .ok () else return .error e

def save (path : String) (text : String) : m (Except FileError Unit) := do
  let made ← match Path.parents path with
    | [] => pure (.ok ())
    | parent :: above => makeDirectories parent above
  match made with
  | .ok () => writeText path text
  | .error e => return .error e

end FileAccess
end ScriptLex
