import ScriptLex.Diagnostic.Basic
import ScriptLex.Diagnostic.Snippet

/-!
# Reports

A diagnostic laid out for a reader, with the line of the source that it is
about.
-/

namespace ScriptLex.Diagnostic

/-- Place and snippet. A line that the source does not have leaves the place alone. -/
def locationLines (d : Diagnostic) (source : String) : List String :=
  if d.span = Span.nowhere then
    []
  else
    (" --> " ++ d.span.place) ::
      match Snippet.ofSource source d.span with
      | .ok snippet => [snippet.sourceLine, snippet.caretLine]
      | .error _ => []

def reportLines (d : Diagnostic) (source : String) : List String :=
  [d.header] ++ d.locationLines source ++ d.notes.map ("  = note: " ++ ·) ++
    d.helps.map ("  = help: " ++ ·)

/-- The whole report; each of its lines ends with a line feed. -/
def report (d : Diagnostic) (source : String) : String := Text.unlines (d.reportLines source)

end ScriptLex.Diagnostic
