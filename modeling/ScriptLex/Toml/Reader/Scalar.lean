import ScriptLex.Toml.Value

/-!
# Numbers, truth values and moments of TOML

All of them are runs of a few characters between blanks or punctuation, so the
run is taken whole and then judged.
-/

namespace ScriptLex.Toml.Reader

def isScalarChar (c : Char) : Bool :=
  c.isAlphanum || c == '+' || c == '-' || c == '_' || c == '.' || c == ':'

/-- One or more digits, with single underscores between digits. -/
def isDigitRun (isDigit : Char → Bool) : List Char → Bool
  | [] => false
  | [c] => isDigit c
  | c :: '_' :: cs => isDigit c && isDigitRun isDigit cs
  | c :: cs => isDigit c && isDigitRun isDigit cs

def isWhole : List Char → Bool
  | ['0'] => true
  | '0' :: _ => false
  | cs => isDigitRun Char.isDigit cs

def splitSign : List Char → Bool × List Char
  | '+' :: cs => (false, cs)
  | '-' :: cs => (true, cs)
  | cs => (false, cs)

def natOfDigits (base : Nat) (cs : List Char) : Nat :=
  (cs.filter (· ≠ '_')).foldl (fun n c => base * n + digit c) 0
where
  digit (c : Char) : Nat :=
    if c.isDigit then c.toNat - '0'.toNat else c.toLower.toNat - 'a'.toNat + 10

def isHexDigit (c : Char) : Bool :=
  c.isDigit || (decide ('a' ≤ c) && decide (c ≤ 'f')) || (decide ('A' ≤ c) && decide (c ≤ 'F'))

/-- Whole numbers of 64 bits with a sign; other bases than ten take no sign. -/
def integer? (cs : List Char) : Option Int :=
  let inRange (n : Int) : Option Int :=
    if Int64.minValue.toInt ≤ n ∧ n ≤ Int64.maxValue.toInt then some n else none
  match cs with
  | '0' :: 'x' :: ds => if isDigitRun isHexDigit ds then inRange (natOfDigits 16 ds) else none
  | '0' :: 'o' :: ds =>
    if isDigitRun (fun c => decide ('0' ≤ c) && decide (c ≤ '7')) ds then
      inRange (natOfDigits 8 ds)
    else
      none
  | '0' :: 'b' :: ds =>
    if isDigitRun (fun c => c == '0' || c == '1') ds then inRange (natOfDigits 2 ds) else none
  | cs =>
    let (negative, ds) := splitSign cs
    if isWhole ds then
      inRange (if negative then -(natOfDigits 10 ds : Int) else natOfDigits 10 ds)
    else
      none

/-- Whether `m * 10 ^ e` lies so high that it rounds beyond the largest 64-bit float: at or above
the middle between that float and the next power of two. -/
def roundsToInfinity (m : Nat) (e : Int) : Bool :=
  let limit := Nat.pow 2 970 * (Nat.pow 2 54 - 1)
  if m = 0 then false
  else
    let magnitude := ((Nat.toDigits 10 m).length : Int) + e
    if magnitude ≤ 308 then false
    else if 310 ≤ magnitude then true
    else if 0 ≤ e then decide (limit ≤ m * Nat.pow 10 e.toNat)
    else decide (limit * Nat.pow 10 (-e).toNat ≤ m)

/-- Numbers with a fraction or an exponent. They must not round to positive infinity. -/
def isFloat (cs : List Char) : Bool :=
  let (negative, ds) := splitSign cs
  if ds = ['i', 'n', 'f'] ∨ ds = ['n', 'a', 'n'] then true
  else
    let isDigitOrGap (c : Char) : Bool := c.isDigit || c == '_'
    let whole := ds.takeWhile isDigitOrGap
    let (fraction, tail) := match ds.dropWhile isDigitOrGap with
      | '.' :: r => (some (r.takeWhile isDigitOrGap), r.dropWhile isDigitOrGap)
      | r => (none, r)
    let exponent := match tail with
      | 'e' :: r | 'E' :: r => some (splitSign r)
      | _ => none
    let fractionFits := match fraction with
      | some f => isDigitRun Char.isDigit f
      | none => exponent.isSome
    let exponentFits := match exponent with
      | some (_, x) => isDigitRun Char.isDigit x
      | none => tail.isEmpty
    let places := (fraction.getD []).filter (· ≠ '_')
    let scale : Int := match exponent with
      | some (true, x) => -(natOfDigits 10 x : Int)
      | some (false, x) => natOfDigits 10 x
      | none => 0
    isWhole whole && fractionFits && exponentFits &&
      (negative || !roundsToInfinity (natOfDigits 10 (whole ++ places)) (scale - places.length))

def pair? (a b : Char) : Option Nat :=
  if a.isDigit && b.isDigit then some (natOfDigits 10 [a, b]) else none

/-- Hours, minutes and seconds, the last with an optional fraction, and what follows. A minute may
have a sixty-first second. -/
def clock? : List Char → Option (List Char)
  | a :: b :: ':' :: c :: d :: ':' :: e :: f :: cs => do
    let hour ← pair? a b
    let minute ← pair? c d
    let second ← pair? e f
    if 23 < hour ∨ 59 < minute ∨ 60 < second then none
    else match cs with
      | '.' :: r => if (r.takeWhile Char.isDigit).isEmpty then none else some (r.dropWhile Char.isDigit)
      | cs => some cs
  | _ => none

def isOffset : List Char → Bool
  | ['Z'] | ['z'] => true
  | [sign, a, b, ':', c, d] =>
    (sign == '+' || sign == '-') &&
      (match pair? a b, pair? c d with
      | some hour, some minute => decide (hour ≤ 23) && decide (minute ≤ 59)
      | _, _ => false)
  | _ => false

def isClock (cs : List Char) : Bool := clock? cs == some []

def isDatedClock (cs : List Char) : Bool :=
  match clock? cs with
  | some rest => rest.isEmpty || isOffset rest
  | none => false

def daysIn (year month : Nat) : Nat :=
  if month = 2 then
    if year % 4 = 0 ∧ (year % 100 ≠ 0 ∨ year % 400 = 0) then 29 else 28
  else if month = 4 ∨ month = 6 ∨ month = 9 ∨ month = 11 then 30
  else 31

def date? : List Char → Option (List Char)
  | a :: b :: c :: d :: '-' :: e :: f :: '-' :: g :: h :: cs => do
    let century ← pair? a b
    let year ← pair? c d
    let month ← pair? e f
    let day ← pair? g h
    if month < 1 ∨ 12 < month ∨ day < 1 ∨ daysIn (100 * century + year) month < day then none
    else some cs
  | _ => none

def isDate (cs : List Char) : Bool := date? cs == some []

def isMoment (cs : List Char) : Bool :=
  isClock cs ||
    match date? cs with
    | some [] => true
    | some ('T' :: r) | some ('t' :: r) => isDatedClock r
    | _ => false

def scalar? (run : List Char) : Option Value :=
  if run = "true".toList then some (.boolean true)
  else if run = "false".toList then some (.boolean false)
  else if isMoment run then some .moment
  else match integer? run with
    | some n => some (.integer n)
    | none => if isFloat run then some .float else none

/-- An unquoted value and what follows. A date may have its time of day behind a space. -/
def unquoted? (cs : List Char) : Option (Value × List Char) :=
  let run := cs.takeWhile isScalarChar
  let rest := cs.dropWhile isScalarChar
  match rest with
  | ' ' :: later =>
    if isDate run && isDatedClock (later.takeWhile isScalarChar) then
      some (.moment, later.dropWhile isScalarChar)
    else
      (scalar? run).map (·, rest)
  | _ => (scalar? run).map (·, rest)

end ScriptLex.Toml.Reader
