/-!
# Blanks, line ends and comments of TOML
-/

namespace ScriptLex.Toml.Reader

def isSpace (c : Char) : Bool := c == ' ' || c == '\t'

/-- Characters that stand for themselves in text and comments: all but controls, and the tab. -/
def isPlain (c : Char) : Bool := c == '\t' || (decide (0x20 ≤ c.toNat) && c != '\x7f')

def skipSpaces (cs : List Char) : List Char := cs.dropWhile isSpace

def lineEnd? : List Char → Option (List Char)
  | '\n' :: cs => some cs
  | '\r' :: '\n' :: cs => some cs
  | _ => none

def skipComment : List Char → List Char
  | '#' :: cs => cs.dropWhile isPlain
  | cs => cs

/-- The text behind spaces, a comment and the end of the line or of the document. -/
def restOfLine? (cs : List Char) : Option (List Char) :=
  match skipComment (skipSpaces cs) with
  | [] => some []
  | cs => lineEnd? cs

def skipEmptyLines : List Char → List Char
  | '\n' :: cs => skipEmptyLines cs
  | '\r' :: '\n' :: cs => skipEmptyLines cs
  | c :: cs => if isSpace c then skipEmptyLines cs else c :: cs
  | [] => []

/-- Skips spaces, line ends and comments that a line end follows, as between the items of an array.
The flag tells whether the text is inside a comment. -/
def skipLayout : Bool → List Char → List Char
  | _, '\n' :: cs => skipLayout false cs
  | _, '\r' :: '\n' :: cs => skipLayout false cs
  | true, c :: cs => if isPlain c then skipLayout true cs else c :: cs
  | false, '#' :: cs => skipLayout true cs
  | false, c :: cs => if isSpace c then skipLayout false cs else c :: cs
  | _, [] => []

theorem length_skipEmptyLines_le (cs : List Char) :
    (skipEmptyLines cs).length ≤ cs.length := by
  fun_induction skipEmptyLines cs <;> simp_all <;> omega

theorem length_of_lineEnd? {cs rest : List Char} (h : lineEnd? cs = some rest) :
    rest.length < cs.length := by
  unfold lineEnd? at h
  split at h
  · cases h
    exact Nat.lt_succ_self _
  · cases h
    exact Nat.lt_succ_of_lt (Nat.lt_succ_self _)
  · contradiction

theorem length_skipSpaces_le (cs : List Char) : (skipSpaces cs).length ≤ cs.length :=
  (List.dropWhile_sublist isSpace).length_le

end ScriptLex.Toml.Reader
