import ScriptLex.Diagnostic.Basic
import ScriptLex.Text.Quoted

/-!
# Lexical errors
-/

namespace ScriptLex

inductive LexError where
  | emptyInput
  /-- A character outside the alphabet, or an `=` just behind another one. -/
  | unexpectedCharacter (ch : Char) (span : Span)
  /-- A string that the end of input cut off; the span starts at its quote. -/
  | unterminatedString (span : Span)
  /-- Digits that denote `2 ^ 64` or more. -/
  | integerOverflow (digits : String) (span : Span)
deriving DecidableEq, Repr

namespace LexError

def code : LexError → Code
  | emptyInput => .emptyInput
  | unexpectedCharacter .. => .unexpectedCharacter
  | unterminatedString _ => .unterminatedString
  | integerOverflow .. => .integerOverflow

def span? : LexError → Option Span
  | emptyInput => none
  | unexpectedCharacter _ span | unterminatedString span | integerOverflow _ span => some span

def problem : LexError → String
  | emptyInput => "source text is empty"
  | unexpectedCharacter ch _ => "unexpected character " ++ Text.quotedChar ch
  | unterminatedString _ => "unterminated string literal"
  | integerOverflow digits _ => "integer literal `" ++ digits ++ "` does not fit in 64 bits"

def message (e : LexError) : String :=
  match e with
  | emptyInput => e.problem
  | unexpectedCharacter _ span | integerOverflow _ span => s!"{e.problem} at {span.place}"
  | unterminatedString span => s!"{e.problem} starting at {span.place}"

def notes : LexError → List String
  | unexpectedCharacter ch _ =>
    if ch = '=' then ["`==` is not an operator of this language"] else []
  | integerOverflow .. => [s!"the largest literal is {UInt64.size - 1}"]
  | emptyInput | unterminatedString _ => []

def helps : LexError → List String
  | unterminatedString _ => ["add a closing `\"`"]
  | emptyInput | unexpectedCharacter .. | integerOverflow .. => []

def toDiagnostic (e : LexError) : Diagnostic where
  level := .error
  message := e.problem
  span := e.span?.getD Span.nowhere
  code := some e.code
  notes := e.notes
  helps := e.helps

end LexError
end ScriptLex
