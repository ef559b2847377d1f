import ScriptLex.Proofs.Machine.Report
import ScriptLex.Proofs.Stepping

/-!
# Scanning on machine words

The scanning routines on a machine's cursor, one by one. Scanning a number or a
word where none starts is a fault, and so is the request for a token that does
not exist. `Follows` says of a routine that it has no fault and does what the
routine of the same name does, and where the errors and warnings are that it shows.
-/

namespace ScriptLex
namespace Machine

-- ---------------------------------------------------------------------------
-- Tokens
-- ---------------------------------------------------------------------------

def reserved : List String := ["let", "function", "return"]

def fixedToken (kind : Kind) : Except Fault Token := (Token.ofKind? kind).mapError .noSuchToken

def keywordToken : String → Except Fault Token
  | "let" => fixedToken (.fixed .«let»)
  | "function" => fixedToken (.fixed .function)
  | "return" => fixedToken (.fixed .«return»)
  | word => .error (.noSuchToken (.notReserved word))

-- ---------------------------------------------------------------------------
-- Numbers
-- ---------------------------------------------------------------------------

def checkedMul (a b : UInt64) : Option UInt64 :=
  if a.toNat * b.toNat < UInt64.size then some (a * b) else none

def checkedAdd (a b : UInt64) : Option UInt64 :=
  if a.toNat + b.toNat < UInt64.size then some (a + b) else none

def push (r : Numeral.Register) (digit : UInt64) : Numeral.Register :=
  match (checkedMul r.value 10).bind (checkedAdd · digit) with
  | some value => { r with value }
  | none => { value := r.value * 10 + digit, overflowed := true }

namespace Cursor

/-- Passes digits. The low byte of a digit is the digit. -/
def digits (c : Cursor) (r : Numeral.Register) : Except Fault (Numeral.Register × Cursor) :=
  if c.ch.isDigit then
    match sub (c.ch.toNat % 256) '0'.toNat with
    | .error f => .error f
    | .ok digit =>
      match c.advance with
      | .error f => .error f
      | .ok after =>
        if _h : after.remaining < c.remaining then
          after.digits (push r (UInt64.ofNat digit))
        else
          .error .stuck
  else
    .ok (r, c)
termination_by c.remaining

end Cursor

-- ---------------------------------------------------------------------------
-- Lexers
-- ---------------------------------------------------------------------------

structure Lexer where
  cursor : Cursor
  options : Options
  collector : Collector := .empty
deriving DecidableEq, Repr

abbrev Answered (α : Type) := Except LexError α × Lexer

namespace Lexer

def start? (source : String) (options : Options) : Except Fault (Except LexError Lexer) :=
  if source.isEmpty && options.isStrict then
    .ok (.error .emptyInput)
  else do
    let cursor ← Cursor.start source
    return .ok { cursor, options }

def isStrict (l : Lexer) : Bool := l.options.isStrict

def warn (l : Lexer) (span : Span) (message : String) (code : Code) : Lexer :=
  { l with collector := l.collector.emit ((Diagnostic.warning message span).withCode code) }

def advance (l : Lexer) : Except Fault Lexer := do
  let cursor ← l.cursor.advance
  return { l with cursor }

def eatWhile (l : Lexer) (p : Char → Bool) : Except Fault Lexer := do
  let cursor ← l.cursor.eatWhile p
  return { l with cursor }

def skipBlanks (l : Lexer) : Except Fault Lexer := l.eatWhile isBlank

def number (l : Lexer) : Except Fault (Answered UInt64) :=
  if l.cursor.ch.isDigit then do
    let mark := l.cursor.mark
    let (register, cursor) ← l.cursor.digits {}
    let after := { l with cursor }
    if register.overflowed then
      let span := cursor.spanFrom mark
      let text ← cursor.sliceFrom mark.offset
      if l.isStrict then
        return (.error (.integerOverflow (String.ofList text) span), after)
      else
        return (.ok register.value, after.warn span
          ("integer literal `" ++ String.ofList text ++ "` wrapped to " ++
            toString register.value.toNat) .wrappedInteger)
    else
      return (.ok register.value, after)
  else
    .error (.assertion (.notOnDigit l.cursor.ch))

def word (l : Lexer) : Except Fault (String × Lexer) :=
  if l.cursor.ch.isAlpha then do
    let after ← l.eatWhile Char.isAlpha
    let text ← after.cursor.sliceFrom l.cursor.position
    return (String.ofList text, after)
  else
    .error (.assertion (.notOnLetter l.cursor.ch))

def wordToken (l : Lexer) : Except Fault (Answered Token) := do
  let (text, after) ← l.word
  if reserved.contains text then
    let token ← keywordToken text
    return (.ok token, after)
  else
    return (.ok (.ident text), after)

def stringText (l : Lexer) : Except Fault (Answered String) := do
  let mark := l.cursor.mark
  let after ← l.eatWhile isStringChar
  let text ← after.cursor.sliceFrom mark.offset
  if after.cursor.atEnd then
    let span := after.cursor.spanFrom (ScriptLex.Lexer.openingQuote mark)
    if l.isStrict then
      return (.error (.unterminatedString span), after)
    else
      return (.ok (String.ofList text),
        after.warn span "string literal closed by end of input" .openString)
  else
    return (.ok (String.ofList text), after)

def string (l : Lexer) : Except Fault (Answered (Option Token)) := do
  let quote ← l.cursor.currentSpan
  let inside ← l.advance
  if !l.isStrict && !inside.cursor.ch.isAlpha then
    return (.ok none, inside.warn quote "skipped quote not followed by a letter" .droppedInput)
  else
    match ← inside.stringText with
    | (.error e, after) => return (.error e, after)
    | (.ok text, after) =>
      let behind ← after.advance
      return (.ok (some (.string text)), behind)

def single (l : Lexer) (kind : Kind) : Except Fault (Answered Token) := do
  let after ← l.advance
  let token ← fixedToken kind
  return (.ok token, after)

def equals (l : Lexer) : Except Fault (Answered Token) :=
  if l.isStrict then do
    let consumed ← l.cursor.consumed
    if consumed.getLast? == some '=' then
      let span ← l.cursor.currentSpan
      let after ← l.advance
      return (.error (.unexpectedCharacter '=' span), after)
    else
      l.single (.fixed .equal)
  else
    l.single (.fixed .equal)

def unexpected (l : Lexer) (ch : Char) : Except Fault (Answered (Option Token)) := do
  let span ← l.cursor.currentSpan
  let after ← l.advance
  if l.isStrict then
    return (.error (.unexpectedCharacter ch span), after)
  else
    return (.ok none, after.warn span
      ("skipped unexpected character " ++ Text.quotedChar ch) .droppedInput)

def mapAnswer (f : α → β) (scan : Except Fault (Answered α)) :
    Except Fault (Answered β) := do
  let (answer, after) ← scan
  return (answer.map f, after)

def scanToken (l : Lexer) : Except Fault (Answered (Option Token)) :=
  if l.cursor.atEnd then
    .ok (.ok none, l)
  else
    let ch := l.cursor.ch
    match Fixed.ofPunctuation? ch with
    | some mark => mapAnswer some (l.single (.fixed mark))
    | none =>
      if ch = '=' then mapAnswer some l.equals
      else if ch = '\"' then l.string
      else if ch.isDigit then mapAnswer (some ∘ Token.number) l.number
      else if ch.isAlpha then mapAnswer some l.wordToken
      else if isBlank ch then do
        let after ← l.skipBlanks
        return (.ok none, after)
      else l.unexpected ch

end Lexer

-- ---------------------------------------------------------------------------
-- Tokens and numbers do not fail
-- ---------------------------------------------------------------------------

@[simp] theorem fixedToken_fixed (f : Fixed) : fixedToken (.fixed f) = .ok (.fixed f) := rfl

theorem keywordToken_eq (h : reserved.contains word = true) :
    ∃ f, Fixed.ofKeyword? word = some f ∧ keywordToken word = .ok (.fixed f) := by
  have hmem : word ∈ reserved := List.contains_iff_mem.mp h
  simp only [reserved, List.mem_cons, List.not_mem_nil, or_false] at hmem
  rcases hmem with rfl | rfl | rfl
  · exact ⟨.«let», rfl, rfl⟩
  · exact ⟨.function, rfl, rfl⟩
  · exact ⟨.«return», rfl, rfl⟩

theorem ofKeyword?_eq_none_of_contains (h : reserved.contains word = false) :
    Fixed.ofKeyword? word = none := by
  rw [Fixed.ofKeyword?, List.find?_eq_none]
  intro f hf he
  obtain rfl : f.symbol = word := beq_iff_eq.mp he
  have hall : ∀ f ∈ Fixed.keywords, reserved.contains f.symbol = true := by decide
  rw [hall f hf] at h
  contradiction

theorem toNat_of_isDigit {c : Char} (hc : c.isDigit = true) : 48 ≤ c.toNat ∧ c.toNat ≤ 57 := by
  simp only [Char.isDigit, Bool.and_eq_true, decide_eq_true_eq] at hc
  exact hc

theorem checkedMulAdd_eq (a : UInt64) {digit : Nat} (hdigit : digit < 10) :
    (checkedMul a 10).bind (checkedAdd · (UInt64.ofNat digit)) =
      if a.toNat * 10 + digit < UInt64.size then some (a * 10 + UInt64.ofNat digit) else none := by
  have hten : (10 : UInt64).toNat = 10 := rfl
  have hsmall : (UInt64.ofNat digit).toNat = digit :=
    UInt64.toNat_ofNat_of_lt' (by rw [UInt64.size]; omega)
  by_cases hmul : a.toNat * 10 < UInt64.size
  · have hproduct : (a * 10).toNat = a.toNat * 10 := by
      rw [UInt64.toNat_mul, hten]
      exact Nat.mod_eq_of_lt hmul
    rw [checkedMul, hten, if_pos hmul, Option.bind_some, checkedAdd, hproduct, hsmall]
  · rw [checkedMul, hten, if_neg hmul, Option.bind_none, if_neg (by omega)]

theorem push_eq (r : Numeral.Register) {c : Char} (hc : c.isDigit = true) :
    push r (UInt64.ofNat (Numeral.digitValue c)) = r.push c := by
  have hdigit : Numeral.digitValue c < 10 := by
    have := toNat_of_isDigit hc
    show c.toNat - 48 < 10
    omega
  rw [push, checkedMulAdd_eq r.value hdigit, Numeral.Register.push]
  by_cases hfits : r.value.toNat * 10 + Numeral.digitValue c < UInt64.size
  · rw [if_pos hfits, decide_eq_false (Nat.not_le.mpr hfits), Bool.or_false]
  · rw [if_neg hfits, decide_eq_true (Nat.not_lt.mp hfits), Bool.or_true]

end Machine

namespace Cursor

variable {c : Cursor} {source : List Char}

theorem digits_image (hs : c.StandsIn source)
    (hsize : source.length + 1 < Machine.counterLimit) (r : Numeral.Register) :
    (c.image source).digits r =
      .ok ((c.rest.takeWhile Char.isDigit).foldl Numeral.Register.push r,
        (c.eatWhile Char.isDigit).image source) := by
  fun_induction eatWhile Char.isDigit c generalizing r with
  | case1 c hr =>
    have hch : (c.image source).ch = sentinel := by simp [image, current, hr]
    have hd : ¬ (c.image source).ch.isDigit = true := by simp [hch, sentinel]
    rw [Machine.Cursor.digits, if_neg hd, hr]
    rfl
  | case2 c ch rest hr hp ih =>
    have hch : (c.image source).ch = ch := by simp [image, current, hr]
    have hafter := standsIn_advance hs
    have hshorter := hs.remaining_image_lt hafter (advance_length_lt hr)
    have hdigit : Machine.sub (ch.toNat % 256) '0'.toNat = .ok (Numeral.digitValue ch) := by
      have hrange := Machine.toNat_of_isDigit hp
      rw [Nat.mod_eq_of_lt (by omega)]
      exact Machine.sub_eq hrange.1
    rw [Machine.Cursor.digits, if_pos (by rw [hch, hp]), hch, hdigit, advance_image hs hsize]
    dsimp only
    rw [dif_pos hshorter, Machine.push_eq r hp, ih hafter, rest_advance, hr, List.tail_cons,
      List.takeWhile_cons_of_pos hp, List.foldl_cons]
  | case3 c ch rest hr hp =>
    have hch : (c.image source).ch = ch := by simp [image, current, hr]
    rw [Machine.Cursor.digits, if_neg (by rw [hch]; exact hp), hr, List.takeWhile_cons_of_neg hp]
    rfl

end Cursor

-- ---------------------------------------------------------------------------
-- Following
-- ---------------------------------------------------------------------------

def Lexer.image (source : List Char) (l : Lexer) : Machine.Lexer :=
  ⟨l.cursor.image source, l.options, l.collector⟩

structure Lexer.Within (source : List Char) (l : Lexer) : Prop where
  stands : l.cursor.StandsIn source
  kept : ∀ d ∈ l.collector.diagnostics, d.Within source

/-- The diagnostics in an answer: those inside its value, or that of its error. -/
def diagnosed {α : Type} (inside : α → List Diagnostic) : Except LexError α → List Diagnostic
  | .ok a => inside a
  | .error e => [e.toDiagnostic]

def errors {α : Type} : Except LexError α → List Diagnostic := diagnosed fun _ => []

theorem diagnosed_map {α β : Type} (inside : β → List Diagnostic) (f : α → β)
    (answer : Except LexError α) :
    diagnosed inside (answer.map f) = diagnosed (inside ∘ f) answer := by
  cases answer <;> rfl

/-- The machine has no fault and comes to the expected answer and lexer. `shown` are the
diagnostics in an answer. -/
structure Follows {α : Type} (source : List Char) (shown : α → List Diagnostic)
    (ran : Except Machine.Fault (α × Machine.Lexer)) (expected : α × Lexer) : Prop where
  runs : ran = .ok (expected.1, expected.2.image source)
  within : expected.2.Within source
  shown_within : ∀ d ∈ shown expected.1, d.Within source

namespace Follows

variable {α β : Type} {source : List Char} {ran : Except Machine.Fault (Machine.Answered α)}

theorem ok {l : Lexer} {a : α} (hruns : ran = .ok (.ok a, l.image source))
    (h : l.Within source) : Follows source errors ran (.ok a, l) :=
  ⟨hruns, h, fun _ hd => nomatch hd⟩

theorem error {l : Lexer} {e : LexError}
    (hruns : ran = .ok (.error e, l.image source)) (h : l.Within source)
    (he : e.toDiagnostic.Within source) : Follows source errors ran (.error e, l) := by
  refine ⟨hruns, h, fun d hd => ?_⟩
  obtain rfl := List.mem_singleton.mp hd
  exact he

theorem map {l : Lexer} {answer : Except LexError α} (h : Follows source errors ran (answer, l))
    (f : α → β) : Follows source errors (Machine.Lexer.mapAnswer f ran) (answer.map f, l) := by
  have hruns : Machine.Lexer.mapAnswer f ran = .ok (answer.map f, l.image source) := by
    rw [h.runs]
    rfl
  cases answer with
  | ok a => exact .ok hruns h.within
  | error e => exact .error hruns h.within (h.shown_within _ (List.mem_singleton_self _))

end Follows

namespace Lexer

variable {l : Lexer} {source : List Char}

theorem Within.column_le (h : l.Within source) : l.cursor.mark.column ≤ source.length + 1 := by
  have hcolumn := h.stands.column_le
  have hlength := h.stands.length_eq
  omega

theorem Within.advance (h : l.Within source) : l.advance.Within source :=
  ⟨Cursor.standsIn_advance h.stands, h.kept⟩

theorem Within.eatWhile (h : l.Within source) (p : Char → Bool) :
    (l.eatWhile p).Within source :=
  ⟨Cursor.standsIn_eatWhile h.stands p, h.kept⟩

theorem Within.warn (h : l.Within source) (hspan : span.column ≤ source.length + 1)
    (message : String) (code : Code) : (l.warn span message code).Within source := by
  refine ⟨h.stands, fun d hd => ?_⟩
  simp only [Lexer.warn, Collector.diagnostics_emit, List.mem_append, List.mem_singleton] at hd
  rcases hd with hd | rfl
  · exact h.kept d hd
  · exact hspan

theorem remaining_image_lt {after : Lexer} (h : l.Within source) (hafter : after.Within source)
    (hlt : after.cursor.rest.length < l.cursor.rest.length) :
    (after.image source).cursor.remaining < (l.image source).cursor.remaining :=
  h.stands.remaining_image_lt hafter.stands hlt

theorem sliceFrom_eatWhile (h : l.Within source) (p : Char → Bool) :
    ((l.eatWhile p).image source).cursor.sliceFrom l.cursor.mark.offset =
      .ok (l.cursor.rest.takeWhile p) := by
  have hslice := Cursor.sliceFrom_image h.stands
    (List.takeWhile_append_dropWhile (p := p) (l := l.cursor.rest)).symm
  rw [← Cursor.eatWhile_eq_pass] at hslice
  exact hslice

section
variable (hsize : source.length + 1 < Machine.counterLimit)
include hsize

theorem advance_image (h : l.Within source) :
    (l.image source).advance = .ok (l.advance.image source) := by
  rw [Machine.Lexer.advance, image, Cursor.advance_image h.stands hsize]
  rfl

theorem eatWhile_image (h : l.Within source) (p : Char → Bool) :
    (l.image source).eatWhile p = .ok ((l.eatWhile p).image source) := by
  rw [Machine.Lexer.eatWhile, image, Cursor.eatWhile_image h.stands hsize]
  rfl

theorem number_follows (h : l.Within source) (hd : l.cursor.current.isDigit = true) :
    Follows source errors (l.image source).number (l.number.answer, l.number.lexer) := by
  have hdigits : (l.image source).cursor.digits {} =
      .ok (Numeral.read (l.cursor.rest.takeWhile Char.isDigit),
        ((l.eatWhile Char.isDigit).image source).cursor) :=
    Cursor.digits_image h.stands hsize {}
  have hslice := sliceFrom_eatWhile h Char.isDigit
  have hafter := h.eatWhile Char.isDigit
  have hch : (l.image source).cursor.ch.isDigit = true := hd
  have hstrict : (l.image source).isStrict = l.isStrict := rfl
  have hmark : (l.image source).cursor.mark = l.cursor.mark := rfl
  unfold Machine.Lexer.number number
  cases hover : (Numeral.read (l.cursor.rest.takeWhile Char.isDigit)).overflowed with
  | false =>
    simp only [hch, if_true, hdigits, hover, bind, Except.bind, pure, Except.pure,
      Bool.false_eq_true, if_false]
    exact .ok rfl hafter
  | true =>
    cases hs : l.isStrict with
    | false =>
      simp only [hch, if_true, hdigits, hover, hmark, hslice, hstrict, hs, bind, Except.bind,
        pure, Except.pure, Bool.false_eq_true, if_false]
      exact .ok rfl (hafter.warn h.column_le _ _)
    | true =>
      simp only [hch, if_true, hdigits, hover, hmark, hslice, hstrict, hs, bind, Except.bind,
        pure, Except.pure]
      exact .error rfl hafter h.column_le

theorem word_image (h : l.Within source) (hl : l.cursor.current.isAlpha = true) :
    (l.image source).word = .ok (l.word.1, l.word.2.image source) := by
  have hslice := sliceFrom_eatWhile h Char.isAlpha
  have hch : (l.image source).cursor.ch.isAlpha = true := hl
  have hposition : (l.image source).cursor.position = l.cursor.mark.offset := rfl
  rw [Machine.Lexer.word, if_pos hch, eatWhile_image hsize h, hposition]
  simp only [hslice, bind, Except.bind, pure, Except.pure]
  rfl

theorem wordToken_follows (h : l.Within source) (hl : l.cursor.current.isAlpha = true) :
    Follows source errors (l.image source).wordToken
      (l.wordToken.answer, l.wordToken.lexer) := by
  have hafter : l.word.2.Within source := h.eatWhile Char.isAlpha
  have hstep : l.wordToken = match Fixed.ofKeyword? l.word.1 with
    | some keyword => ⟨.ok (.fixed keyword), l.word.2⟩
    | none => ⟨.ok (.ident l.word.1), l.word.2⟩ := rfl
  rw [Machine.Lexer.wordToken, word_image hsize h hl, hstep]
  cases hword : Machine.reserved.contains l.word.1 with
  | true =>
    obtain ⟨f, hf, htoken⟩ := Machine.keywordToken_eq hword
    simp only [hword, htoken, hf, if_true, bind, Except.bind, pure, Except.pure]
    exact .ok rfl hafter
  | false =>
    simp only [hword, Machine.ofKeyword?_eq_none_of_contains hword, Bool.false_eq_true, if_false,
      bind, Except.bind, pure, Except.pure]
    exact .ok rfl hafter

theorem stringText_follows (h : l.Within source) :
    Follows source errors (l.image source).stringText
      (l.stringText.answer, l.stringText.lexer) := by
  have hafter := h.eatWhile isStringChar
  have hslice := sliceFrom_eatWhile h isStringChar
  have hend : ((l.eatWhile isStringChar).image source).cursor.atEnd =
      (l.eatWhile isStringChar).atEnd := hafter.stands.atEnd_image
  have hmark : (l.image source).cursor.mark = l.cursor.mark := rfl
  have hstrict : (l.image source).isStrict = l.isStrict := rfl
  have hcolumn : (openingQuote l.cursor.mark).column ≤ source.length + 1 := by
    have := h.column_le
    show max (l.cursor.mark.column - 1) 1 ≤ source.length + 1
    omega
  unfold Machine.Lexer.stringText stringText
  rw [eatWhile_image hsize h]
  cases hopen : (l.eatWhile isStringChar).atEnd with
  | false =>
    simp only [hmark, hslice, hend, hopen, Bool.false_eq_true, if_false, bind, Except.bind, pure,
      Except.pure]
    exact .ok rfl hafter
  | true =>
    cases hs : l.isStrict with
    | false =>
      simp only [hmark, hslice, hend, hopen, hstrict, hs, Bool.false_eq_true, if_false, if_true,
        bind, Except.bind, pure, Except.pure]
      exact .ok rfl (hafter.warn hcolumn _ _)
    | true =>
      simp only [hmark, hslice, hend, hopen, hstrict, hs, if_true, bind, Except.bind, pure,
        Except.pure]
      exact .error rfl hafter hcolumn

theorem string_follows (h : l.Within source) :
    Follows source errors (l.image source).string
      (l.string.answer, l.string.lexer) := by
  have hquote : (l.image source).cursor.currentSpan = .ok l.cursor.currentSpan :=
    Cursor.currentSpan_image h.stands hsize
  have hstrict : (l.image source).isStrict = l.isStrict := rfl
  have hch : (l.advance.image source).cursor.ch = l.advance.cursor.current := rfl
  have htext := stringText_follows hsize h.advance
  unfold Machine.Lexer.string string
  rw [hquote, advance_image hsize h]
  cases hloose : !l.isStrict && !l.advance.cursor.current.isAlpha with
  | true =>
    simp only [hstrict, hch, hloose, if_true, bind, Except.bind, pure, Except.pure]
    exact .ok rfl (h.advance.warn h.column_le _ _)
  | false =>
    simp only [hstrict, hch, hloose, htext.runs, Bool.false_eq_true, if_false, bind, Except.bind,
      pure, Except.pure]
    cases hanswer : l.advance.stringText.answer with
    | error e =>
      have hshown := htext.shown_within
      rw [hanswer] at hshown
      exact .error rfl htext.within (hshown _ (List.mem_singleton_self _))
    | ok text =>
      simp only [advance_image hsize htext.within]
      exact .ok rfl htext.within.advance

theorem single_follows (h : l.Within source) (f : Fixed) :
    Follows source errors ((l.image source).single (.fixed f))
      (.ok (.fixed f), l.advance) := by
  rw [Machine.Lexer.single, advance_image hsize h]
  exact .ok rfl h.advance

theorem equals_follows (h : l.Within source) :
    Follows source errors (l.image source).equals
      (l.equals.answer, l.equals.lexer) := by
  have hspan : (l.image source).cursor.currentSpan = .ok l.cursor.currentSpan :=
    Cursor.currentSpan_image h.stands hsize
  have hconsumed : (l.image source).cursor.consumed = .ok l.cursor.passed.reverse :=
    Cursor.consumed_image h.stands
  have hstrict : (l.image source).isStrict = l.isStrict := rfl
  unfold Machine.Lexer.equals equals
  cases hs : l.isStrict with
  | false =>
    simp only [hstrict, hs, Bool.false_and, Bool.false_eq_true, if_false]
    exact single_follows hsize h .equal
  | true =>
    simp only [hstrict, hs, Bool.true_and, if_true, hconsumed, hspan, advance_image hsize h,
      List.getLast?_reverse, bind, Except.bind, pure, Except.pure]
    cases hdouble : l.cursor.passed.head? == some '=' with
    | false =>
      simp only [Bool.false_eq_true, if_false]
      exact single_follows hsize h .equal
    | true =>
      simp only [if_true]
      exact .error rfl h.advance h.column_le

theorem unexpected_follows (h : l.Within source) (ch : Char) :
    Follows source errors ((l.image source).unexpected ch)
      ((l.unexpected ch).answer, (l.unexpected ch).lexer) := by
  have hspan : (l.image source).cursor.currentSpan = .ok l.cursor.currentSpan :=
    Cursor.currentSpan_image h.stands hsize
  have hstrict : (l.image source).isStrict = l.isStrict := rfl
  unfold Machine.Lexer.unexpected unexpected
  rw [hspan, advance_image hsize h, hstrict]
  cases hs : l.isStrict with
  | false => exact .ok rfl (h.advance.warn h.column_le _ _)
  | true => exact .error rfl h.advance h.column_le

theorem scanToken_follows (h : l.Within source) :
    Follows source errors (l.image source).scanToken
      (l.scanToken.answer, l.scanToken.lexer) := by
  have hend : (l.image source).cursor.atEnd = l.cursor.atEnd := h.stands.atEnd_image
  unfold Machine.Lexer.scanToken scanToken
  cases hr : l.cursor.rest with
  | nil =>
    have hnone : l.cursor.atEnd = true := by rw [Cursor.atEnd, hr]; rfl
    rw [hend, hnone, if_pos rfl]
    exact .ok rfl h
  | cons ch rest =>
    have hsome : l.cursor.atEnd = false := by rw [Cursor.atEnd, hr]; rfl
    have hcurrent : l.cursor.current = ch := by rw [Cursor.current, hr]; rfl
    have hch : (l.image source).cursor.ch = ch := hcurrent
    simp only [hend, hsome, hch, Bool.false_eq_true, if_false]
    cases hmark : Fixed.ofPunctuation? ch with
    | some mark => exact (single_follows hsize h mark).map some
    | none =>
      dsimp only
      split_ifs with hequals hquote hdigit hletter hblank
      · exact (equals_follows hsize h).map some
      · exact string_follows hsize h
      · rw [← hcurrent] at hdigit
        exact (number_follows hsize h hdigit).map (some ∘ Token.number)
      · rw [← hcurrent] at hletter
        exact (wordToken_follows hsize h hletter).map some
      · rw [Machine.Lexer.skipBlanks, eatWhile_image hsize h]
        exact .ok rfl (h.eatWhile isBlank)
      · exact unexpected_follows hsize h ch

end
end Lexer
end ScriptLex
