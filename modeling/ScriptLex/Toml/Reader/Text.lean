import ScriptLex.Toml.Reader.Basic

/-!
# Strings of TOML

Four forms: between single or triple quotes, with escapes or taken literally.
Each reader starts just behind the opening quotes and answers with the text and
what follows the closing ones.
-/

namespace ScriptLex.Toml.Reader

def hexValue? (c : Char) : Option Nat :=
  if c.isDigit then some (c.toNat - '0'.toNat)
  else if 'a' ≤ c ∧ c ≤ 'f' then some (c.toNat - 'a'.toNat + 10)
  else if 'A' ≤ c ∧ c ≤ 'F' then some (c.toNat - 'A'.toNat + 10)
  else none

def charOfHex? (digits : List Char) : Option Char :=
  (digits.mapM hexValue?).bind fun values =>
    let n := values.foldl (fun n d => 16 * n + d) 0
    if n.isValidChar then some (Char.ofNat n) else none

def hexEscape? (count : Nat) (cs : List Char) : Option (Char × List Char) :=
  if count ≤ cs.length then (charOfHex? (cs.take count)).map (·, cs.drop count) else none

def escape? : List Char → Option (Char × List Char)
  | 'b' :: cs => some ('\x08', cs)
  | 't' :: cs => some ('\t', cs)
  | 'n' :: cs => some ('\n', cs)
  | 'f' :: cs => some ('\x0c', cs)
  | 'r' :: cs => some ('\r', cs)
  | '\"' :: cs => some ('\"', cs)
  | '\\' :: cs => some ('\\', cs)
  | 'u' :: cs => hexEscape? 4 cs
  | 'U' :: cs => hexEscape? 8 cs
  | _ => none

theorem length_of_hexEscape? {count : Nat} {cs rest : List Char} {c : Char}
    (h : hexEscape? count cs = some (c, rest)) : rest.length ≤ cs.length := by
  unfold hexEscape? at h
  split at h
  · obtain ⟨_, _, he⟩ := Option.map_eq_some_iff.1 h
    simp [← (Prod.mk.injEq .. ▸ he).2]
  · contradiction

theorem length_of_escape? {cs rest : List Char} {c : Char} (h : escape? cs = some (c, rest)) :
    rest.length < cs.length := by
  unfold escape? at h
  split at h
  case h_8 | h_9 => simpa [Nat.lt_succ_iff] using length_of_hexEscape? h
  all_goals simp_all

def before (cs : List Char) (read : Option (List Char × List Char)) :
    Option (List Char × List Char) :=
  read.map fun found => (cs ++ found.1, found.2)

def basic? (cs : List Char) : Option (List Char × List Char) :=
  match cs with
  | [] => none
  | '\"' :: cs => some ([], cs)
  | '\\' :: cs =>
    match _h : escape? cs with
    | some (c, rest) => before [c] (basic? rest)
    | none => none
  | c :: cs => if isPlain c then before [c] (basic? cs) else none
termination_by cs.length
decreasing_by
  · have := length_of_escape? _h
    simp_all
    omega
  · simp_all

def literal? : List Char → Option (List Char × List Char)
  | [] => none
  | '\'' :: cs => some ([], cs)
  | c :: cs => if isPlain c then before [c] (literal? cs) else none

/-- Text with escapes over several lines. Up to two quotes may stand before the closing three. A
backslash at the end of a line joins it to the next text. -/
def multilineBasic? (cs : List Char) : Option (List Char × List Char) :=
  match cs with
  | [] => none
  | '\"' :: '\"' :: '\"' :: '\"' :: '\"' :: cs => some (['\"', '\"'], cs)
  | '\"' :: '\"' :: '\"' :: '\"' :: cs => some (['\"'], cs)
  | '\"' :: '\"' :: '\"' :: cs => some ([], cs)
  | '\n' :: cs => before ['\n'] (multilineBasic? cs)
  | '\r' :: '\n' :: cs => before ['\n'] (multilineBasic? cs)
  | '\\' :: cs =>
    match _hl : lineEnd? (skipSpaces cs) with
    | some rest => multilineBasic? (skipEmptyLines rest)
    | none =>
      match _h : escape? cs with
      | some (c, rest) => before [c] (multilineBasic? rest)
      | none => none
  | c :: cs => if isPlain c then before [c] (multilineBasic? cs) else none
termination_by cs.length
decreasing_by
  · simp_all
  · simp_all only [List.length_cons]
    omega
  · have h₁ := length_of_lineEnd? _hl
    have h₂ := length_skipSpaces_le cs
    have h₃ := length_skipEmptyLines_le rest
    simp_all
    omega
  · have := length_of_escape? _h
    simp_all
    omega
  · simp_all

def multilineLiteral? : List Char → Option (List Char × List Char)
  | [] => none
  | '\'' :: '\'' :: '\'' :: '\'' :: '\'' :: cs => some (['\'', '\''], cs)
  | '\'' :: '\'' :: '\'' :: '\'' :: cs => some (['\''], cs)
  | '\'' :: '\'' :: '\'' :: cs => some ([], cs)
  | '\n' :: cs => before ['\n'] (multilineLiteral? cs)
  | '\r' :: '\n' :: cs => before ['\n'] (multilineLiteral? cs)
  | c :: cs => if isPlain c then before [c] (multilineLiteral? cs) else none

def skipFirstLineEnd (cs : List Char) : List Char := (lineEnd? cs).getD cs

def string? : List Char → Option (List Char × List Char)
  | '\"' :: '\"' :: '\"' :: cs => multilineBasic? (skipFirstLineEnd cs)
  | '\'' :: '\'' :: '\'' :: cs => multilineLiteral? (skipFirstLineEnd cs)
  | '\"' :: cs => basic? cs
  | '\'' :: cs => literal? cs
  | _ => none

end ScriptLex.Toml.Reader
