import ScriptLex.Span
import ScriptLex.Text.Bytes

/-!
# Cursors

A place between two characters of a text. Passing a character moves the place
by the bytes of that character, to a new line behind `\n` and to the next
column otherwise.
-/

namespace ScriptLex

structure Mark where
  offset : Nat
  line : Nat
  column : Nat
deriving DecidableEq, Repr

namespace Mark

def origin : Mark := ⟨0, 1, 1⟩

def after (m : Mark) (c : Char) : Mark :=
  if c = '\n' then
    ⟨m.offset + c.utf8Size, m.line + 1, 1⟩
  else
    ⟨m.offset + c.utf8Size, m.line, m.column + 1⟩

end Mark

structure Cursor where
  /-- Characters before the cursor, nearest first. -/
  passed : List Char
  rest : List Char
  mark : Mark
deriving DecidableEq, Repr

namespace Cursor

def start (source : String) : Cursor := ⟨[], source.toList, Mark.origin⟩

def atEnd (c : Cursor) : Bool := c.rest.isEmpty

/-- What stands for the next character at the end of the text. -/
def sentinel : Char := '\x00'

/-- The next character. Text may hold the sentinel too, so `atEnd` decides where it ends. -/
def current (c : Cursor) : Char := c.rest.headD sentinel

def advance (c : Cursor) : Cursor :=
  match c.rest with
  | [] => c
  | ch :: rest => ⟨ch :: c.passed, rest, c.mark.after ch⟩

theorem advance_length_lt {c : Cursor} {ch : Char} {rest : List Char} (h : c.rest = ch :: rest) :
    c.advance.rest.length < c.rest.length := by
  simp [advance, h]

def eatWhile (p : Char → Bool) (c : Cursor) : Cursor :=
  match _h : c.rest with
  | [] => c
  | ch :: _ => if p ch then c.advance.eatWhile p else c
termination_by c.rest.length
decreasing_by exact advance_length_lt _h

def consumed (c : Cursor) : String := String.ofList c.passed.reverse

def sliceFrom? (c : Cursor) (offset : Nat) : Option String :=
  (Text.slice? offset c.mark.offset c.passed.reverse).map String.ofList

def spanFrom (c : Cursor) (m : Mark) : Span := ⟨m.offset, c.mark.offset, m.line, m.column⟩

def currentSpan (c : Cursor) : Span :=
  ⟨c.mark.offset, c.mark.offset + (c.rest.head?.map Char.utf8Size).getD 0, c.mark.line,
    c.mark.column⟩

@[simp] theorem rest_advance (c : Cursor) : c.advance.rest = c.rest.tail := by
  unfold advance
  split <;> simp_all

theorem rest_eatWhile (p : Char → Bool) (c : Cursor) :
    (c.eatWhile p).rest = c.rest.dropWhile p := by
  fun_induction eatWhile p c with
  | case1 c h => simp [h]
  | case2 c ch _ h hp ih => simp [ih, h, hp]
  | case3 c ch _ h hp => simp [h, hp]

end Cursor
end ScriptLex
