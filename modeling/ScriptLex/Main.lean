import ScriptLex.Program

/-!
# The command-line tool

Carries out the file operations of a run on the files of the system, and prints
what the run ends with.
-/

namespace ScriptLex

def fileError : IO.Error → FileError
  | .noFileOrDirectory .. => .notFound
  | .alreadyExists .. => .alreadyExists
  | .inappropriateType _ code details =>
    -- Some operations report the negated code.
    if code = 20 ∨ code = 0 - 20 then .notADirectory
    else if code = 21 ∨ code = 0 - 21 then .isADirectory
    else .other details
  | .invalidArgument _ code details =>
    if code = 36 ∨ code = 0 - 36 then .nameTooLong else .other details
  | e => .other (toString e)

def attempt (action : IO α) : IO (Except FileError α) := do
  try
    return .ok (← action)
  catch e =>
    return .error (fileError e)

def readBytes (path : String) : IO (Except FileError ByteArray) := attempt (IO.FS.readBinFile path)

instance : FileAccess IO where
  pathExists path := do
    match ← readBytes path with
    | .error .notFound | .error .notADirectory | .error .nameTooLong => return false
    | _ => return true
  isDirectory path := do
    match ← readBytes path with
    | .error .isADirectory => return true
    | _ => return false
  readText path := do
    match ← readBytes path with
    | .error e => return .error e
    | .ok bytes =>
      match String.fromUTF8? bytes with
      | some text => return .ok text
      | none => return .error .notText
  writeText path text := attempt (IO.FS.writeFile path text)
  makeDirectory path := attempt (IO.FS.createDir path)

/-- The directory of settings is the one that the environment names in full, or else below home. -/
def userDirectories : IO UserDirectories := do
  let home? ← IO.getEnv "HOME"
  let named? := (← IO.getEnv "XDG_CONFIG_HOME").filter Path.isAbsolute
  return { home?, settings? := named? <|> home?.map (· ++ "/.config") }

def environment : IO CommandLine.Environment := do
  return {
    verbose? := ← IO.getEnv "ARJIT_VERBOSE"
    config? := ← IO.getEnv "ARJIT_CONFIG"
    noColor? := ← IO.getEnv "ARJIT_NO_COLOR" }

def runTool (args : List String) : IO UInt32 := do
  let finished ← Program.run args (← environment) (← userDirectories)
  (← IO.getStdout).putStr finished.stdout
  (← IO.getStderr).putStr finished.stderr
  return UInt32.ofNat finished.exitCode

end ScriptLex

def main (args : List String) : IO UInt32 := ScriptLex.runTool args
