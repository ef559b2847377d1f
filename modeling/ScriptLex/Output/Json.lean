/-!
# JSON text

Values are laid out over several lines, two spaces for each level. Everything
but quotes, backslashes and the controls below the space stands for itself.
-/

namespace ScriptLex.Json

inductive Value where
  | string (text : String)
  | number (n : Nat)
  | array (items : List Value)
  | object (fields : List (String × Value))

def escape (c : Char) : List Char :=
  if c = '\"' then ['\\', '\"']
  else if c = '\\' then ['\\', '\\']
  else if c = '\x08' then ['\\', 'b']
  else if c = '\x0c' then ['\\', 'f']
  else if c = '\n' then ['\\', 'n']
  else if c = '\r' then ['\\', 'r']
  else if c = '\t' then ['\\', 't']
  else if c.toNat < 0x20 then ['\\', 'u'] ++ (Nat.toDigits 16 c.toNat).leftpad 4 '0'
  else [c]

def quoted (s : String) : String :=
  String.ofList (['\"'] ++ s.toList.flatMap escape ++ ['\"'])

def newLine (level : Nat) : String := "\n" ++ String.ofList (List.replicate (2 * level) ' ')

def bracketed (opening closing : String) (level : Nat) (parts : List String) : String :=
  if parts.isEmpty then
    opening ++ closing
  else
    opening ++ newLine (level + 1) ++ ("," ++ newLine (level + 1)).intercalate parts ++
      newLine level ++ closing

mutual

def Value.print (level : Nat) : Value → String
  | .string s => quoted s
  | .number n => toString n
  | .array items => bracketed "[" "]" level (printItems (level + 1) items)
  | .object fields => bracketed "\x7b" "\x7d" level (printFields (level + 1) fields)

def printItems (level : Nat) : List Value → List String
  | [] => []
  | v :: vs => v.print level :: printItems level vs

def printFields (level : Nat) : List (String × Value) → List String
  | [] => []
  | (name, v) :: fields => (quoted name ++ ": " ++ v.print level) :: printFields level fields

end

end ScriptLex.Json
