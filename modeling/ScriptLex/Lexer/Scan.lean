import ScriptLex.Alphabet
import ScriptLex.Lexer.Basic
import ScriptLex.Numeral
import ScriptLex.Token

/-!
# Scanning

One lexeme, run of blanks or piece of unusable input at a time. Strict mode
turns unusable input into errors, lenient mode into warnings; apart from
strings that do not start with a letter, both pass the same characters.
-/

namespace ScriptLex.Lexer

def skipBlanks (l : Lexer) : Lexer := l.eatWhile isBlank

/-- Passes a run of digits. A run that denotes `2 ^ 64` or more is an error or wraps around. -/
def number (l : Lexer) : Step UInt64 :=
  let digits := l.cursor.rest.takeWhile Char.isDigit
  let register := Numeral.read digits
  let after := l.eatWhile Char.isDigit
  if register.overflowed then
    let text := String.ofList digits
    let span := after.cursor.spanFrom l.cursor.mark
    if l.isStrict then
      ⟨.error (.integerOverflow text span), after⟩
    else
      ⟨.ok register.value, after.warn span
        ("integer literal `" ++ text ++ "` wrapped to " ++ toString register.value.toNat)
        .wrappedInteger⟩
  else
    ⟨.ok register.value, after⟩

def word (l : Lexer) : String × Lexer :=
  (String.ofList (l.cursor.rest.takeWhile Char.isAlpha), l.eatWhile Char.isAlpha)

def wordToken (l : Lexer) : Step Token :=
  let (text, after) := l.word
  match Fixed.ofKeyword? text with
  | some keyword => ⟨.ok (.fixed keyword), after⟩
  | none => ⟨.ok (.ident text), after⟩

/-- The place of the quote just before `m`, on the same line. -/
def openingQuote (m : Mark) : Mark := ⟨m.offset - 1, m.line, max (m.column - 1) 1⟩

/-- Passes the text of a string, from just behind its quote up to the closing quote. When the
input ends first, that is an error, or a warning about text that is taken as it stands. -/
def stringText (l : Lexer) : Step String :=
  let text := String.ofList (l.cursor.rest.takeWhile isStringChar)
  let after := l.eatWhile isStringChar
  if after.atEnd then
    let span := after.cursor.spanFrom (openingQuote l.cursor.mark)
    if l.isStrict then
      ⟨.error (.unterminatedString span), after⟩
    else
      ⟨.ok text, after.warn span "string literal closed by end of input" .openString⟩
  else
    ⟨.ok text, after⟩

/-- A string from its opening quote on. In lenient mode a quote without a letter behind it is
dropped alone. -/
def string (l : Lexer) : Step (Option Token) :=
  let inside := l.advance
  if !l.isStrict && !inside.cursor.current.isAlpha then
    ⟨.ok none, inside.warn l.cursor.currentSpan "skipped quote not followed by a letter"
      .droppedInput⟩
  else
    let text := inside.stringText
    match text.answer with
    | .ok s => ⟨.ok (some (.string s)), text.lexer.advance⟩
    | .error e => ⟨.error e, text.lexer⟩

/-- An `=`. There is no `==`, so strict mode rejects an `=` just behind another. -/
def equals (l : Lexer) : Step Token :=
  if l.isStrict && l.cursor.passed.head? == some '=' then
    ⟨.error (.unexpectedCharacter '=' l.cursor.currentSpan), l.advance⟩
  else
    ⟨.ok (.fixed .equal), l.advance⟩

def unexpected (l : Lexer) (ch : Char) : Step (Option Token) :=
  if l.isStrict then
    ⟨.error (.unexpectedCharacter ch l.cursor.currentSpan), l.advance⟩
  else
    ⟨.ok none, l.advance.warn l.cursor.currentSpan
      ("skipped unexpected character " ++ Text.quotedChar ch) .droppedInput⟩

/-- One step: a token, nothing for blanks and dropped input, or an error. At the end of input
nothing changes. -/
def scanToken (l : Lexer) : Step (Option Token) :=
  match l.cursor.rest with
  | [] => ⟨.ok none, l⟩
  | ch :: _ =>
    match Fixed.ofPunctuation? ch with
    | some mark => ⟨.ok (some (.fixed mark)), l.advance⟩
    | none =>
      if ch = '=' then l.equals.map some
      else if ch = '\"' then l.string
      else if ch.isDigit then l.number.map (some ∘ Token.number)
      else if ch.isAlpha then l.wordToken.map some
      else if isBlank ch then ⟨.ok none, l.skipBlanks⟩
      else l.unexpected ch

end ScriptLex.Lexer
