/-!
# File errors
-/

namespace ScriptLex

inductive FileError where
  | notFound
  | notADirectory
  | isADirectory
  | alreadyExists
  /-- The name holds a NUL character. -/
  | invalidName
  | nameTooLong
  /-- The bytes are no UTF-8. -/
  | notText
  /-- Anything else, in the system's own words. -/
  | other (description : String)
deriving DecidableEq, Repr

def FileError.message : FileError → String
  | notFound => "No such file or directory (os error 2)"
  | notADirectory => "Not a directory (os error 20)"
  | isADirectory => "Is a directory (os error 21)"
  | alreadyExists => "File exists (os error 17)"
  | invalidName => "file name contained an unexpected NUL byte"
  | nameTooLong => "File name too long (os error 36)"
  | notText => "stream did not contain valid UTF-8"
  | other description => description

end ScriptLex
