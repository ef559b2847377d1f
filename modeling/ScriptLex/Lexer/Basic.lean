import ScriptLex.Cursor
import ScriptLex.Diagnostic.Collector
import ScriptLex.LexError
import ScriptLex.Options

/-!
# Lexer states

A cursor over the source, the options, and the warnings not yet taken. A
scanning step answers with a value or an error and always leaves a lexer, from
which scanning can go on.
-/

namespace ScriptLex

structure Lexer where
  cursor : Cursor
  options : Options
  collector : Collector := .empty
deriving DecidableEq, Repr

structure Step (α : Type) where
  answer : Except LexError α
  lexer : Lexer

def Step.map (f : α → β) (s : Step α) : Step β := ⟨s.answer.map f, s.lexer⟩

namespace Lexer

def start? (source : String) (options : Options) : Except LexError Lexer :=
  if options.isStrict && source.isEmpty then
    .error .emptyInput
  else
    .ok { cursor := .start source, options }

def isStrict (l : Lexer) : Bool := l.options.isStrict

def atEnd (l : Lexer) : Bool := l.cursor.atEnd

def onCursor (l : Lexer) (f : Cursor → Cursor) : Lexer := { l with cursor := f l.cursor }

def advance (l : Lexer) : Lexer := l.onCursor Cursor.advance

def eatWhile (l : Lexer) (p : Char → Bool) : Lexer := l.onCursor (Cursor.eatWhile p)

def warn (l : Lexer) (span : Span) (message : String) (code : Code) : Lexer :=
  { l with collector := l.collector.emit ((Diagnostic.warning message span).withCode code) }

def takeDiagnostics (l : Lexer) : List Diagnostic × Lexer :=
  let (taken, collector) := l.collector.take
  (taken, { l with collector })

end Lexer
end ScriptLex
