/-!
# Lines

A line ends at `\n`, and a `\r` just before that `\n` belongs to the line end.
Text that stops at a line end has no empty line after it.
-/

namespace ScriptLex.Text

/-- The lines of a text, without their ends. A `\r` that no `\n` follows stays. -/
def lines : List Char → List (List Char)
  | [] => []
  | '\n' :: cs => [] :: lines cs
  | '\r' :: '\n' :: cs => [] :: lines cs
  | c :: cs =>
    match lines cs with
    | [] => [[c]]
    | line :: rest => (c :: line) :: rest

theorem lines_eq_nil_iff {cs : List Char} : lines cs = [] ↔ cs = [] := by
  fun_induction lines cs <;> simp_all

def unlines (ls : List String) : String :=
  String.join (ls.map (· ++ "\n"))

end ScriptLex.Text
