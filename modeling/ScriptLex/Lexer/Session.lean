import ScriptLex.Lexer.Run

/-!
# Lexers driven by hand

Any sequence of operations on a lexer. Numbers and words are to be scanned only
where one starts; elsewhere nothing changes.
-/

namespace ScriptLex

inductive Operation where
  | scanToken
  | next
  | advance
  | skipBlanks
  | number
  | word
  | stringText
  /-- Looks at the warnings kept so far. -/
  | diagnostics
  | take
deriving DecidableEq, Repr

inductive Misuse where
  | notOnDigit (ch : Char)
  | notOnLetter (ch : Char)
deriving DecidableEq, Repr

def Misuse.message : Misuse → String
  | .notOnDigit ch => "scan_number called on " ++ Text.quotedChar ch
  | .notOnLetter ch => "scan_identifier called on " ++ Text.quotedChar ch

inductive Outcome where
  | nothing
  | token (t : Token)
  /-- No token is left. -/
  | exhausted
  | number (value : UInt64)
  | text (s : String)
  | diagnostics (ds : List Diagnostic)
  | error (e : LexError)
  | misuse (m : Misuse)
deriving DecidableEq, Repr

def Outcome.ofExcept (f : α → Outcome) : Except LexError α → Outcome
  | .ok a => f a
  | .error e => .error e

def Outcome.ofToken? : Option Token → Outcome
  | some t => .token t
  | none => .nothing

namespace Lexer

def perform (l : Lexer) : Operation → Outcome × Lexer
  | .scanToken => (.ofExcept .ofToken? l.scanToken.answer, l.scanToken.lexer)
  | .next =>
    match l.next with
    | (some item, after) => (.ofExcept .token item, after)
    | (none, after) => (.exhausted, after)
  | .advance => (.nothing, l.advance)
  | .skipBlanks => (.nothing, l.skipBlanks)
  | .number =>
    if l.cursor.current.isDigit then
      (.ofExcept .number l.number.answer, l.number.lexer)
    else
      (.misuse (.notOnDigit l.cursor.current), l)
  | .word =>
    if l.cursor.current.isAlpha then
      (.text l.word.1, l.word.2)
    else
      (.misuse (.notOnLetter l.cursor.current), l)
  | .stringText => (.ofExcept .text l.stringText.answer, l.stringText.lexer)
  | .diagnostics => (.diagnostics l.collector.diagnostics, l)
  | .take => (.diagnostics l.takeDiagnostics.1, l.takeDiagnostics.2)

def performAll (l : Lexer) : List Operation → List Outcome × Lexer
  | [] => ([], l)
  | op :: ops =>
    let (outcome, after) := l.perform op
    let (outcomes, last) := after.performAll ops
    (outcome :: outcomes, last)

end Lexer
end ScriptLex
