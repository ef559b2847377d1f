import Mathlib.Data.List.Forall2
import ScriptLex.Output.Json
import ScriptLex.Proofs.Quoting
import ScriptLex.Proofs.RoundTrip

/-!
# Reading JSON

A reader of all JSON texts, by the grammar alone: it knows nothing of how
values are laid out. `read?_print` is the one statement about it and the
printer: what is printed is read back as the value that was printed.
-/

namespace ScriptLex.Json

/-- What a JSON text says. A number with a fraction or an exponent is
`mantissa * 10 ^ exponent`. -/
inductive Datum where
  | null
  | boolean (b : Bool)
  | integer (n : Int)
  | decimal (mantissa exponent : Int)
  | string (text : String)
  | array (items : List Datum)
  | object (fields : List (String × Datum))

-- ---------------------------------------------------------------------------
-- The reader
-- ---------------------------------------------------------------------------

namespace Reader

def isSpace (c : Char) : Bool := c == ' ' || c == '\t' || c == '\n' || c == '\r'

def skipSpaces (cs : List Char) : List Char := cs.dropWhile isSpace

def unit? (cs : List Char) : Option (Nat × List Char) :=
  if 4 ≤ cs.length then
    ((cs.take 4).mapM Toml.Reader.hexValue?).map fun values =>
      (values.foldl (fun n d => 16 * n + d) 0, cs.drop 4)
  else
    none

/-- The character with a code point behind `\u`. Beyond `\uffff` it takes a pair of surrogates. -/
def codePoint? (cs : List Char) : Option (Char × List Char) := do
  let (high, rest) ← unit? cs
  if high.isValidChar then
    return (Char.ofNat high, rest)
  else
    let '\\' :: 'u' :: rest := rest | none
    let (low, rest) ← unit? rest
    if high < 0xDC00 ∧ 0xDC00 ≤ low ∧ low < 0xE000 then
      return (Char.ofNat (0x10000 + 0x400 * (high - 0xD800) + (low - 0xDC00)), rest)
    else
      none

/-- A character of a string, escaped or as it is. Controls have to be escaped. -/
def char? : List Char → Option (Char × List Char)
  | '\\' :: '\"' :: cs => some ('\"', cs)
  | '\\' :: '\\' :: cs => some ('\\', cs)
  | '\\' :: '/' :: cs => some ('/', cs)
  | '\\' :: 'b' :: cs => some ('\x08', cs)
  | '\\' :: 'f' :: cs => some ('\x0c', cs)
  | '\\' :: 'n' :: cs => some ('\n', cs)
  | '\\' :: 'r' :: cs => some ('\r', cs)
  | '\\' :: 't' :: cs => some ('\t', cs)
  | '\\' :: 'u' :: cs => codePoint? cs
  | '\\' :: _ => none
  | c :: cs => if 0x20 ≤ c.toNat ∧ c ≠ '\"' then some (c, cs) else none
  | [] => none

def text? (cs : List Char) : Option (List Char × List Char) :=
  match cs with
  | '\"' :: rest => some ([], rest)
  | cs =>
    match char? cs with
    | none => none
    | some (c, rest) =>
      if rest.length < cs.length then
        (text? rest).map fun found => (c :: found.1, found.2)
      else
        none
termination_by cs.length

def digits? (cs : List Char) : Option (List Char × List Char) :=
  let run := cs.takeWhile Char.isDigit
  if run.isEmpty then none else some (run, cs.dropWhile Char.isDigit)

/-- The digits before the point. No zero stands in front of others. -/
def whole? : List Char → Option (List Char × List Char)
  | '0' :: cs => some (['0'], cs)
  | cs => digits? cs

def fraction? : List Char → Option (List Char × List Char)
  | '.' :: cs => digits? cs
  | cs => some ([], cs)

def signed (negative : Bool) (digits : List Char) : Int :=
  if negative then -(Numeral.denoted digits : Int) else Numeral.denoted digits

def minus : List Char → Bool × List Char
  | '-' :: cs => (true, cs)
  | cs => (false, cs)

def exponent? : List Char → Option (Option Int × List Char)
  | [] => some (none, [])
  | c :: cs =>
    if c = 'e' ∨ c = 'E' then
      let (negative, digits) := if cs.head? = some '+' then (false, cs.tail) else minus cs
      (digits? digits).map fun found => (some (signed negative found.1), found.2)
    else
      some (none, c :: cs)

def number? (cs : List Char) : Option (Datum × List Char) := do
  let (whole, rest) ← whole? (minus cs).2
  let (fraction, rest) ← fraction? rest
  let (power, rest) ← exponent? rest
  let mantissa := signed (minus cs).1 (whole ++ fraction)
  if fraction.isEmpty ∧ power.isNone then
    return (.integer mantissa, rest)
  else
    return (.decimal mantissa (power.getD 0 - fraction.length), rest)

/-- One part or more, with commas between them, up to the closing character. -/
def parts? {α : Type} (part? : List Char → Option (α × List Char)) (closing : Char)
    (cs : List Char) : Option (List α × List Char) :=
  match part? (skipSpaces cs) with
  | none => none
  | some (a, rest) =>
    match skipSpaces rest with
    | [] => none
    | c :: later =>
      if c = closing then some ([a], later)
      else if c = ',' ∧ later.length < cs.length then
        (parts? part? closing later).map fun found => (a :: found.1, found.2)
      else none
termination_by cs.length

def list? {α : Type} (part? : List Char → Option (α × List Char)) (closing : Char)
    (cs : List Char) : Option (List α × List Char) :=
  if (skipSpaces cs).head? = some closing then some ([], (skipSpaces cs).tail)
  else parts? part? closing cs

def field? (value? : List Char → Option (Datum × List Char)) (cs : List Char) :
    Option ((String × Datum) × List Char) := do
  let '\"' :: cs := cs | none
  let (name, rest) ← text? cs
  let ':' :: rest := skipSpaces rest | none
  let (v, rest) ← value? (skipSpaces rest)
  return ((String.ofList name, v), rest)

/-- A value and what follows; `depth` is the number of levels that may still be opened. -/
def value? : Nat → List Char → Option (Datum × List Char)
  | depth + 1, '[' :: cs =>
    (list? (value? depth) ']' cs).map fun found => (.array found.1, found.2)
  | depth + 1, '\x7b' :: cs =>
    (list? (field? (value? depth)) '\x7d' cs).map fun found => (.object found.1, found.2)
  | _, '\"' :: cs => (text? cs).map fun found => (.string (String.ofList found.1), found.2)
  | _, 't' :: 'r' :: 'u' :: 'e' :: cs => some (.boolean true, cs)
  | _, 'f' :: 'a' :: 'l' :: 's' :: 'e' :: cs => some (.boolean false, cs)
  | _, 'n' :: 'u' :: 'l' :: 'l' :: cs => some (.null, cs)
  | _, cs => number? cs

def depthLimit : Nat := 128

end Reader

def read? (text : String) : Option Datum :=
  match Reader.value? Reader.depthLimit (Reader.skipSpaces text.toList) with
  | none => none
  | some (v, rest) => if (Reader.skipSpaces rest).isEmpty then some v else none

-- ---------------------------------------------------------------------------
-- Strings
-- ---------------------------------------------------------------------------

namespace Reader

theorem unit?_control {c : Char} (h : c.toNat < 0x20) (rest : List Char) :
    unit? ((Nat.toDigits 16 c.toNat).leftpad 4 '0' ++ rest) = some (c.toNat, rest) := by
  have hshort : (Nat.toDigits 16 c.toNat).length ≤ 4 :=
    (Nat.length_toDigits_le_iff (by decide) (by decide)).mpr (by omega)
  have hlength : ((Nat.toDigits 16 c.toNat).leftpad 4 '0').length = 4 := by
    rw [List.length_leftpad]
    omega
  have hall : 4 ≤ ((Nat.toDigits 16 c.toNat).leftpad 4 '0' ++ rest).length := by
    rw [List.length_append]
    omega
  obtain ⟨values, hvalues, hn⟩ :=
    (Toml.Reader.isHexOf_toDigits c.toNat).padded (4 - (Nat.toDigits 16 c.toNat).length)
  change ((Nat.toDigits 16 c.toNat).leftpad 4 '0').mapM _ = _ at hvalues
  rw [unit?, if_pos hall, List.take_left' hlength, List.drop_left' hlength, hvalues,
    Option.map_some, hn]

theorem codePoint?_control {c : Char} (h : c.toNat < 0x20) (rest : List Char) :
    codePoint? ((Nat.toDigits 16 c.toNat).leftpad 4 '0' ++ rest) = some (c, rest) := by
  have hvalid : c.toNat.isValidChar := c.valid
  rw [codePoint?, unit?_control h]
  simp [hvalid]

theorem char?_escape (c : Char) (rest : List Char) :
    char? (escape c ++ rest) = some (c, rest) := by
  unfold escape
  split
  · next h => simp [h, char?]
  split
  · next h => simp [h, char?]
  split
  · next h => simp [h, char?]
  split
  · next h => simp [h, char?]
  split
  · next h => simp [h, char?]
  split
  · next h => simp [h, char?]
  split
  · next h => simp [h, char?]
  next hquote hslash _ _ _ _ _ =>
  split
  · next h => exact codePoint?_control h rest
  · next h =>
    have hplain : 0x20 ≤ c.toNat := Nat.le_of_not_lt h
    simp [char?, hquote, hslash, hplain]

theorem head?_escape_ne (c : Char) (rest : List Char) :
    (escape c ++ rest).head? ≠ some '\"' := by
  unfold escape
  split
  · simp
  next hquote =>
  repeat' split
  all_goals simp [hquote]

theorem escape_ne_nil (c : Char) : escape c ≠ [] := by
  unfold escape
  repeat' split
  all_goals simp

theorem text?_escape (c : Char) (cs : List Char) :
    text? (escape c ++ cs) = (text? cs).map fun found => (c :: found.1, found.2) := by
  have hpos := List.length_pos_iff.mpr (escape_ne_nil c)
  have hshorter : cs.length < (escape c ++ cs).length := by
    rw [List.length_append]
    omega
  rw [text?]
  · simp only [char?_escape, hshorter, if_true]
  · intro rest h
    have hhead := head?_escape_ne c cs
    rw [h] at hhead
    contradiction

theorem text?_flatMap (cs rest : List Char) :
    text? (cs.flatMap escape ++ '\"' :: rest) = some (cs, rest) := by
  induction cs with
  | nil => rw [List.flatMap_nil, List.nil_append, text?]
  | cons c cs ih => rw [List.flatMap_cons, List.append_assoc, text?_escape, ih, Option.map_some]

-- ---------------------------------------------------------------------------
-- Numbers
-- ---------------------------------------------------------------------------

/-- What stands behind a value: the comma before the next one, or a new line. -/
def Ends (rest : List Char) : Prop := ∀ c ∈ rest.head?, c = ',' ∨ c = '\n'

theorem eq_nil_of_toDigits (h : Nat.toDigits 10 n = '0' :: ds) : n = 0 ∧ ds = [] := by
  induction n using Nat.strongRecOn generalizing ds with
  | ind n ih =>
    rw [Nat.toDigits_eq_if (by decide)] at h
    split at h
    · next hn =>
      obtain ⟨hzero, rfl⟩ := List.cons.inj h
      have hall : ∀ d < 10, Nat.digitChar d = '0' → d = 0 := by decide
      exact ⟨hall n hn hzero, rfl⟩
    · next hn =>
      obtain ⟨d, more, hmore⟩ :=
        List.exists_cons_of_ne_nil (Nat.toDigits_ne_nil (b := 10) (n := n / 10))
      rw [hmore, List.cons_append] at h
      obtain ⟨rfl, -⟩ := List.cons.inj h
      have hsmall := (ih (n / 10) (by omega) hmore).1
      omega

theorem digits?_toDigits (n : Nat) (hr : Ends rest) :
    digits? (Nat.toDigits 10 n ++ rest) = some (Nat.toDigits 10 n, rest) := by
  have hlong : IsLongest Char.isDigit (Nat.toDigits 10 n) rest := by
    refine ⟨fun c hc => Nat.isDigit_of_mem_toDigits (by decide) (by decide) hc, fun c hc => ?_⟩
    rcases hr c hc with rfl | rfl <;> rfl
  have hne : (Nat.toDigits 10 n).isEmpty = false := by simp
  simp [digits?, hlong.takeWhile_eq, hlong.dropWhile_eq, hne]

theorem whole?_toDigits (n : Nat) (hr : Ends rest) :
    whole? (Nat.toDigits 10 n ++ rest) = some (Nat.toDigits 10 n, rest) := by
  obtain ⟨d, ds, hds⟩ := List.exists_cons_of_ne_nil (Nat.toDigits_ne_nil (b := 10) (n := n))
  by_cases hd : d = '0'
  · obtain ⟨-, rfl⟩ := eq_nil_of_toDigits (hd ▸ hds)
    rw [hds, hd]
    rfl
  · rw [← digits?_toDigits n hr, hds, List.cons_append, whole?]
    rintro cs ⟨⟩
    exact hd rfl

theorem number?_toDigits (n : Nat) (hr : Ends rest) :
    number? (Nat.toDigits 10 n ++ rest) = some (.integer n, rest) := by
  obtain ⟨d, ds, hds⟩ := List.exists_cons_of_ne_nil (Nat.toDigits_ne_nil (b := 10) (n := n))
  have hd : d.isDigit = true :=
    Nat.isDigit_of_mem_toDigits (b := 10) (by decide) (by decide) (by rw [hds]; simp)
  have hsign : d ≠ '-' := by
    rintro rfl
    contradiction
  have hvalue := Numeral.denoted_padded 0 n
  rw [List.replicate_zero, List.nil_append] at hvalue
  have hfraction : fraction? rest = some ([], rest) := by
    rw [fraction?]
    rintro cs rfl
    rcases hr '.' rfl with h | h <;> contradiction
  have hexponent : exponent? rest = some (none, rest) := by
    cases rest with
    | nil => rfl
    | cons c cs =>
      have hc : ¬ (c = 'e' ∨ c = 'E') := by
        rintro (rfl | rfl) <;> rcases hr _ rfl with h | h <;> contradiction
      rw [exponent?, if_neg hc]
  have hminus : minus (Nat.toDigits 10 n ++ rest) = (false, Nat.toDigits 10 n ++ rest) := by
    rw [hds, List.cons_append, minus]
    rintro cs ⟨⟩
    exact hsign rfl
  simp [number?, hminus, whole?_toDigits n hr, hfraction, hexponent, signed, hvalue]

-- ---------------------------------------------------------------------------
-- Arrays and objects
-- ---------------------------------------------------------------------------

def Starts (text : List Char) : Prop :=
  ∃ c cs, text = c :: cs ∧ isSpace c = false ∧ c ≠ ']' ∧ c ≠ '\x7d'

/-- What `part?` reads in the text is `a`, and no more than the text. -/
structure ReadsAs {α : Type} (part? : List Char → Option (α × List Char)) (text : List Char)
    (a : α) : Prop where
  starts : Starts text
  read : ∀ rest, Ends rest → part? (text ++ rest) = some (a, rest)

theorem toList_newLine (level : Nat) :
    (newLine level).toList = '\n' :: List.replicate (2 * level) ' ' := by
  simp [newLine]

theorem ends_newLine (level : Nat) (rest : List Char) : Ends ((newLine level).toList ++ rest) := by
  rw [toList_newLine]
  rintro c ⟨⟩
  exact .inr rfl

theorem skipSpaces_newLine (level : Nat) (hc : isSpace c = false) (cs : List Char) :
    skipSpaces ((newLine level).toList ++ c :: cs) = c :: cs := by
  have hline : ∀ d ∈ (newLine level).toList, isSpace d = true := by
    rw [toList_newLine]
    intro d hd
    rcases List.mem_cons.mp hd with rfl | hd
    · rfl
    · rw [List.eq_of_mem_replicate hd]
      rfl
  rw [skipSpaces, List.dropWhile_append_of_pos hline, List.dropWhile_cons_of_neg (by simp [hc])]

variable {α : Type} {part? : List Char → Option (α × List Char)} {closing : Char}

theorem ReadsAs.read_newLine (h : ReadsAs part? text a) (level : Nat) (hr : Ends rest) :
    part? (skipSpaces ((newLine level).toList ++ (text ++ rest))) = some (a, rest) := by
  obtain ⟨c, cs, rfl, hc, -⟩ := h.starts
  rw [List.cons_append, skipSpaces_newLine level hc]
  exact h.read rest hr

theorem parts?_intercalate (h : List.Forall₂ (ReadsAs part?) texts as) (hne : texts ≠ [])
    (hspace : isSpace closing = false) (hcomma : closing ≠ ',') (inner outer : Nat)
    (rest : List Char) :
    parts? part? closing ((newLine inner).toList ++
      ((',' :: (newLine inner).toList).intercalate texts ++
        ((newLine outer).toList ++ closing :: rest))) = some (as, rest) := by
  induction h with
  | nil => exact absurd rfl hne
  | @cons text a texts as htext hmore ih =>
    cases texts with
    | nil =>
      cases hmore
      rw [List.intercalate_singleton, parts?, htext.read_newLine inner (ends_newLine outer _)]
      simp only [skipSpaces_newLine outer hspace, if_true]
    | cons next texts =>
      have hlater := ih (List.cons_ne_nil next texts)
      have hends (cs : List Char) : Ends (',' :: cs) := by
        rintro c ⟨⟩
        exact .inl rfl
      have hskip (cs : List Char) : skipSpaces (',' :: cs) = ',' :: cs := rfl
      rw [List.intercalate_cons_cons, List.append_assoc, List.append_assoc, List.cons_append,
        parts?, htext.read_newLine inner (hends _)]
      have hshorter : ((newLine inner).toList ++
          ((',' :: (newLine inner).toList).intercalate (next :: texts) ++
            ((newLine outer).toList ++ closing :: rest))).length <
          ((newLine inner).toList ++ (text ++ ',' :: ((newLine inner).toList ++
            ((',' :: (newLine inner).toList).intercalate (next :: texts) ++
              ((newLine outer).toList ++ closing :: rest))))).length := by
        simp only [List.length_append, List.length_cons]
        omega
      simp only [hskip, if_neg (Ne.symm hcomma), true_and, if_pos hshorter, hlater, Option.map_some]

theorem list?_bracketed (h : List.Forall₂ (ReadsAs part?) (parts.map String.toList) as)
    (hopening : opening.toList = [first]) (hlast : last.toList = [closing])
    (hclosing : closing = ']' ∨ closing = '\x7d') (level : Nat) (rest : List Char) :
    ∃ body, (bracketed opening last level parts).toList ++ rest = first :: body ∧
      list? part? closing body = some (as, rest) := by
  have hspace : isSpace closing = false := by rcases hclosing with rfl | rfl <;> rfl
  have hcomma : closing ≠ ',' := by rcases hclosing with rfl | rfl <;> decide
  cases parts with
  | nil =>
    cases h
    refine ⟨closing :: rest, by simp [bracketed, hopening, hlast], ?_⟩
    simp [list?, skipSpaces, hspace]
  | cons part parts =>
    have hread := parts?_intercalate h (List.cons_ne_nil _ _) hspace hcomma (level + 1) level rest
    refine ⟨(newLine (level + 1)).toList ++
        ((',' :: (newLine (level + 1)).toList).intercalate ((part :: parts).map String.toList) ++
          ((newLine level).toList ++ closing :: rest)), ?_, ?_⟩
    · simp [bracketed, hopening, hlast, String.toList_intercalate]
    · cases h with
      | cons hpart hmore =>
        obtain ⟨c, cs, hc, hstart, hbracket, hbrace⟩ := hpart.starts
        have hother : c ≠ closing := by
          rcases hclosing with rfl | rfl
          · exact hbracket
          · exact hbrace
        rw [list?, if_neg, hread]
        rw [List.map_cons, hc, List.intercalate_cons_cons_left, List.cons_append,
          skipSpaces_newLine _ hstart]
        simpa using hother

end Reader

-- ---------------------------------------------------------------------------
-- Values
-- ---------------------------------------------------------------------------

mutual

def Value.datum : Value → Datum
  | .string s => .string s
  | .number n => .integer n
  | .array items => .array (itemData items)
  | .object fields => .object (fieldData fields)

def itemData : List Value → List Datum
  | [] => []
  | v :: vs => v.datum :: itemData vs

def fieldData : List (String × Value) → List (String × Datum)
  | [] => []
  | (name, v) :: fields => (name, v.datum) :: fieldData fields

end

mutual

def Value.depth : Value → Nat
  | .string _ | .number _ => 0
  | .array items => itemDepth items + 1
  | .object fields => fieldDepth fields + 1

def itemDepth : List Value → Nat
  | [] => 0
  | v :: vs => max v.depth (itemDepth vs)

def fieldDepth : List (String × Value) → Nat
  | [] => 0
  | (_, v) :: fields => max v.depth (fieldDepth fields)

end

namespace Reader

theorem value?_quoted (depth : Nat) (s : String) (rest : List Char) :
    value? depth ((quoted s).toList ++ rest) = some (.string s, rest) := by
  have htext := text?_flatMap s.toList rest
  have hquoted : (quoted s).toList ++ rest =
      '\"' :: (s.toList.flatMap escape ++ '\"' :: rest) := by
    simp [quoted]
  rw [hquoted, value?, htext]
  simp

theorem value?_toString (depth n : Nat) (hr : Ends rest) :
    value? depth ((toString n).toList ++ rest) = some (.integer n, rest) := by
  have hnumber := number?_toDigits n hr
  obtain ⟨d, ds, hds⟩ := List.exists_cons_of_ne_nil (Nat.toDigits_ne_nil (b := 10) (n := n))
  have hd : d.isDigit = true :=
    Nat.isDigit_of_mem_toDigits (b := 10) (by decide) (by decide) (by rw [hds]; simp)
  have hother (c : Char) (cs : List Char) (hc : c.isDigit = false) :
      d :: (ds ++ rest) ≠ c :: cs := by
    rintro ⟨⟩
    simp [hd] at hc
  rw [Nat.toString_eq_ofList_toDigits, String.toList_ofList, ← hnumber, hds, List.cons_append,
    value?]
  all_goals
    intros
    exact hother _ _ rfl ‹_›

theorem starts_quoted (s : String) : Starts (quoted s).toList :=
  ⟨'\"', s.toList.flatMap escape ++ ['\"'], by simp [quoted], rfl, by decide, by decide⟩

theorem isSpace_eq_false_of_isDigit (h : c.isDigit = true) : isSpace c = false := by
  refine eq_false_of_ne_true fun hspace => ?_
  simp only [isSpace, Bool.or_eq_true, beq_iff_eq] at hspace
  rcases hspace with ((rfl | rfl) | rfl) | rfl <;> contradiction

theorem starts_toString (n : Nat) : Starts (toString n).toList := by
  obtain ⟨d, ds, hds⟩ := List.exists_cons_of_ne_nil (Nat.toDigits_ne_nil (b := 10) (n := n))
  have hd : d.isDigit = true :=
    Nat.isDigit_of_mem_toDigits (b := 10) (by decide) (by decide) (by rw [hds]; simp)
  refine ⟨d, ds, by simp [hds], isSpace_eq_false_of_isDigit hd, ?_, ?_⟩
  · rintro rfl
    contradiction
  · rintro rfl
    contradiction

theorem starts_bracketed (hopening : opening.toList = [first]) (hspace : isSpace first = false)
    (hbracket : first ≠ ']') (hbrace : first ≠ '\x7d') (last : String) (level : Nat)
    (parts : List String) : Starts (bracketed opening last level parts).toList := by
  unfold bracketed
  split
  · exact ⟨first, last.toList, by simp [hopening], hspace, hbracket, hbrace⟩
  · simp only [String.toList_append, hopening, List.append_assoc, List.singleton_append]
    exact ⟨first, _, rfl, hspace, hbracket, hbrace⟩

theorem readsAs_array (h : List.Forall₂ (ReadsAs (value? depth)) (parts.map String.toList) items)
    (level : Nat) :
    ReadsAs (value? (depth + 1)) (bracketed "[" "]" level parts).toList (.array items) := by
  have hopening : "[".toList = ['['] := rfl
  have hlast : "]".toList = [']'] := rfl
  refine ⟨starts_bracketed hopening rfl (by decide) (by decide) "]" level parts, ?_⟩
  intro rest _
  obtain ⟨body, htext, hbody⟩ := list?_bracketed h hopening hlast (.inl rfl) level rest
  rw [htext, value?, hbody]
  rfl

theorem readsAs_object
    (h : List.Forall₂ (ReadsAs (field? (value? depth))) (parts.map String.toList) fields)
    (level : Nat) :
    ReadsAs (value? (depth + 1)) (bracketed "\x7b" "\x7d" level parts).toList (.object fields) := by
  have hopening : "\x7b".toList = ['\x7b'] := rfl
  have hlast : "\x7d".toList = ['\x7d'] := rfl
  refine ⟨starts_bracketed hopening rfl (by decide) (by decide) "\x7d" level parts, ?_⟩
  intro rest _
  obtain ⟨body, htext, hbody⟩ := list?_bracketed h hopening hlast (.inr rfl) level rest
  rw [htext, value?, hbody]
  rfl

theorem readsAs_field {text : String} (h : ReadsAs (value? depth) text.toList v) (name : String) :
    ReadsAs (field? (value? depth)) (quoted name ++ ": " ++ text).toList (name, v) := by
  have htext : (quoted name ++ ": " ++ text).toList =
      '\"' :: (name.toList.flatMap escape ++ '\"' :: ':' :: ' ' :: text.toList) := by
    simp [quoted]
  refine ⟨⟨'\"', _, htext, rfl, by decide, by decide⟩, fun rest hr => ?_⟩
  have hname := text?_flatMap name.toList (':' :: ' ' :: (text.toList ++ rest))
  have hcolon : skipSpaces (':' :: ' ' :: (text.toList ++ rest)) =
      ':' :: ' ' :: (text.toList ++ rest) := rfl
  have hvalue : value? depth (skipSpaces (' ' :: (text.toList ++ rest))) = some (v, rest) := by
    obtain ⟨c, cs, hc, hspace, -⟩ := h.starts
    have hskip : skipSpaces (' ' :: (text.toList ++ rest)) = text.toList ++ rest := by
      rw [skipSpaces, List.dropWhile_cons_of_pos rfl, hc, List.cons_append,
        List.dropWhile_cons_of_neg (by simp [hspace])]
    rw [hskip]
    exact h.read rest hr
  rw [htext]
  simp [field?, hname, hcolon, hvalue]

mutual

/-- What a value is printed as is read as that value, on any level. -/
theorem readsAs_print : (v : Value) → (level depth : Nat) → v.depth ≤ depth →
    ReadsAs (value? depth) (v.print level).toList v.datum
  | .string s, _, depth, _ => ⟨starts_quoted s, fun rest _ => value?_quoted depth s rest⟩
  | .number n, _, depth, _ => ⟨starts_toString n, fun _ hr => value?_toString depth n hr⟩
  | .array items, level, depth + 1, h =>
    readsAs_array (readsAs_printItems items (level + 1) depth (Nat.le_of_succ_le_succ h)) level
  | .object fields, level, depth + 1, h =>
    readsAs_object (readsAs_printFields fields (level + 1) depth (Nat.le_of_succ_le_succ h)) level

theorem readsAs_printItems : (items : List Value) → (level depth : Nat) →
    itemDepth items ≤ depth →
      List.Forall₂ (ReadsAs (value? depth)) ((printItems level items).map String.toList)
        (itemData items)
  | [], _, _, _ => .nil
  | v :: vs, level, depth, h =>
    .cons (readsAs_print v level depth (Nat.le_trans (Nat.le_max_left _ _) h))
      (readsAs_printItems vs level depth (Nat.le_trans (Nat.le_max_right _ _) h))

theorem readsAs_printFields : (fields : List (String × Value)) → (level depth : Nat) →
    fieldDepth fields ≤ depth →
      List.Forall₂ (ReadsAs (field? (value? depth)))
        ((printFields level fields).map String.toList) (fieldData fields)
  | [], _, _, _ => .nil
  | (name, v) :: fields, level, depth, h =>
    .cons (readsAs_field (readsAs_print v level depth (Nat.le_trans (Nat.le_max_left _ _) h)) name)
      (readsAs_printFields fields level depth (Nat.le_trans (Nat.le_max_right _ _) h))

end

end Reader

/-- A printed value, on the first level and with a line end behind it, is read back. -/
theorem read?_print (v : Value) (h : v.depth ≤ Reader.depthLimit) :
    read? (v.print 0 ++ "\n") = some v.datum := by
  have hread := Reader.readsAs_print v 0 Reader.depthLimit h
  obtain ⟨c, cs, hc, hspace, -⟩ := hread.starts
  have hskip : Reader.skipSpaces ((v.print 0).toList ++ ['\n']) =
      (v.print 0).toList ++ ['\n'] := by
    rw [hc, List.cons_append, Reader.skipSpaces, List.dropWhile_cons_of_neg (by simp [hspace])]
  have hends : Reader.Ends ['\n'] := by
    rintro d ⟨⟩
    exact .inr rfl
  have hend : (Reader.skipSpaces ['\n']).isEmpty = true := rfl
  have htext : (v.print 0 ++ "\n").toList = (v.print 0).toList ++ ['\n'] := by simp
  rw [read?, htext, hskip, hread.read _ hends]
  simp only [hend, if_true]

end ScriptLex.Json
