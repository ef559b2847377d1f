import ScriptLex.Span
import ScriptLex.Text.Lines

/-!
# Source snippets

One line of the source under a gutter with its number, and carets under the
part of it that a span covers.
-/

namespace ScriptLex

structure Snippet where
  line : String
  lineNumber : Nat
  /-- First highlighted column, counted from one. -/
  startColumn : Nat
  /-- First column after the highlight. -/
  stopColumn : Nat
deriving DecidableEq, Repr

namespace Snippet

/-- Characters that the span covers on its first line, at least one. A span that is no slice of
the source counts as one character. -/
def width (source : String) (span : Span) : Nat :=
  match span.slice? source with
  | none => 1
  | some text => max ((Text.lines text.toList).head?.getD []).length 1

/-- The line of the source that `span` names, highlighted no further than just behind its end. -/
def ofSource (source : String) (span : Span) : Except LocationError Snippet :=
  let sourceLines := Text.lines source.toList
  let named := if source.isEmpty then some [] else sourceLines[span.line - 1]?
  match named with
  | none => .error (.noSuchLine span.line (max sourceLines.length 1))
  | some line =>
    let start := max span.column 1
    let stop := max (min (start + width source span) (line.length + 2)) (start + 1)
    .ok ⟨String.ofList line, span.line, start, stop⟩

def gutter (s : Snippet) (content : List Char) : String :=
  let number := Nat.toDigits 10 s.lineNumber
  String.ofList (content.leftpad (max number.length 3) ' ') ++ " | "

def sourceLine (s : Snippet) : String :=
  s.gutter (Nat.toDigits 10 s.lineNumber) ++ s.line

def caretLine (s : Snippet) : String :=
  s.gutter [] ++ String.ofList
    (List.replicate (s.startColumn - 1) ' ' ++
      List.replicate (max (s.stopColumn - s.startColumn) 1) '^')

def text (s : Snippet) : String := s.sourceLine ++ "\n" ++ s.caretLine

end Snippet
end ScriptLex
