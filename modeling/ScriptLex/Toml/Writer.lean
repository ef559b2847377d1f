/-!
# Writing TOML strings

The shortest form that needs no escapes wins: one line in double quotes, one
line in single quotes, then the same in triple quotes. Where escapes cannot be
avoided the text goes in double quotes, tripled when it has line feeds.
-/

namespace ScriptLex.Toml.Writer

def longestRun (c : Char) (cs : List Char) : Nat :=
  (cs.foldl (fun (longest, run) x =>
    if x = c then (max longest (run + 1), run + 1) else (longest, 0)) (0, 0)).1

def isControl (c : Char) : Bool := decide (c.toNat < 0x20) || c == '\x7f'

def needsCode (c : Char) : Bool := isControl c && c != '\t' && c != '\n'

/-- A character of text with escapes. A line feed stands for itself between triple quotes. -/
def escape (multiline : Bool) (c : Char) : List Char :=
  if c = '\x08' then ['\\', 'b']
  else if c = '\t' then ['\\', 't']
  else if c = '\n' then if multiline then ['\n'] else ['\\', 'n']
  else if c = '\x0c' then ['\\', 'f']
  else if c = '\r' then ['\\', 'r']
  else if c = '\\' then ['\\', '\\']
  else if isControl c then
    ['\\', 'u'] ++ ((Nat.toDigits 16 c.toNat).map Char.toUpper).leftpad 4 '0'
  else [c]

/-- Text with escapes. `quotes` counts the quotes just before, of which triple quotes allow two
in a row. -/
def body (multiline : Bool) (quotes : Nat) : List Char → List Char
  | [] => []
  | c :: cs =>
    if c = '\"' then
      if multiline && decide (quotes < 2) then '\"' :: body multiline (quotes + 1) cs
      else '\\' :: '\"' :: body multiline 0 cs
    else
      escape multiline c ++ body multiline 0 cs

inductive Form where
  | basic
  | literal
  | multilineBasic
  | multilineLiteral
deriving DecidableEq, Repr

def form (cs : List Char) : Form :=
  let codes := cs.any needsCode
  let newline := cs.contains '\n'
  let backslash := cs.contains '\\'
  let double := longestRun '\"' cs
  let single := longestRun '\'' cs
  if !codes && !backslash && double == 0 && !newline then .basic
  else if !codes && single == 0 && !newline then .literal
  else if !codes && !backslash && decide (double ≤ 2) then .multilineBasic
  else if !codes && decide (single ≤ 2) then .multilineLiteral
  else if newline then .multilineBasic
  else .basic

/-- A text of several lines starts on a line of its own. -/
def opening (cs : List Char) : List Char := if cs.contains '\n' then ['\n'] else []

def string (text : String) : String :=
  let cs := text.toList
  String.ofList <|
    match form cs with
    | .basic => ['\"'] ++ body false 0 cs ++ ['\"']
    | .literal => ['\''] ++ cs ++ ['\'']
    | .multilineBasic => ['\"', '\"', '\"'] ++ opening cs ++ body true 0 cs ++ ['\"', '\"', '\"']
    | .multilineLiteral => ['\'', '\'', '\''] ++ opening cs ++ cs ++ ['\'', '\'', '\'']

def boolean (b : Bool) : String := if b then "true" else "false"

end ScriptLex.Toml.Writer
