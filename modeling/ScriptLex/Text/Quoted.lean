import ScriptLex.Text.Extender
import ScriptLex.Text.Unprintable

/-!
# Quoted text

One printed form for text of any kind: on one line, between quotes, with
everything that would not show escaped. A quote is escaped only inside quotes
of its own sort.
-/

namespace ScriptLex.Text

def codePoint (c : Char) : List Char :=
  ['\\', 'u', '\x7b'] ++ Nat.toDigits 16 c.toNat ++ ['\x7d']

/-- One character between quotes of the sort `mark`. -/
def escape (mark : Char) (c : Char) : List Char :=
  if c = '\x00' then ['\\', '0']
  else if c = '\t' then ['\\', 't']
  else if c = '\r' then ['\\', 'r']
  else if c = '\n' then ['\\', 'n']
  else if c = '\\' ∨ c = mark then ['\\', c]
  else if isExtender c || isUnprintable c then codePoint c
  else [c]

def quotedChar (c : Char) : String :=
  String.ofList (['\''] ++ escape '\'' c ++ ['\''])

def quoted (s : String) : String :=
  String.ofList (['\"'] ++ s.toList.flatMap (escape '\"') ++ ['\"'])

end ScriptLex.Text
