/-!
# Alphabet

Classes of characters. Outside strings all of them are ASCII, so letters and
digits are those of `Char.isAlpha` and `Char.isDigit`.
-/

namespace ScriptLex

/-- Space, tab, line feed, form feed and carriage return; no vertical tab. -/
def isBlank (c : Char) : Bool :=
  c == ' ' || c == '\t' || c == '\n' || c == '\x0c' || c == '\r'

/-- Strings have no escapes: they hold everything but a quote. -/
def isStringChar (c : Char) : Bool := c != '\"'

end ScriptLex
