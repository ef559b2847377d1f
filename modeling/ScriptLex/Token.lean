import ScriptLex.Text.Quoted

/-!
# Tokens

Fixed tokens are their own symbol; identifiers, numbers and strings carry what the
source says.
-/

namespace ScriptLex

inductive Fixed where
  | leftParen | rightParen | leftBrace | rightBrace | comma | dot | semicolon
  | plus | minus | star | slash | equal | notEqual
  | «let» | «return» | function
  | endOfInput
deriving DecidableEq, Repr

namespace Fixed

def symbol : Fixed → String
  | leftParen => "("
  | rightParen => ")"
  | leftBrace => "\x7b"
  | rightBrace => "\x7d"
  | comma => ","
  | dot => "."
  | semicolon => ";"
  | plus => "+"
  | minus => "-"
  | star => "*"
  | slash => "/"
  | equal => "="
  | notEqual => "!="
  | «let» => "let"
  | «return» => "return"
  | function => "function"
  | endOfInput => ""

def label : Fixed → String
  | leftParen => "LPAREN"
  | rightParen => "RPAREN"
  | leftBrace => "LBRACE"
  | rightBrace => "RBRACE"
  | comma => "COMMA"
  | dot => "DOT"
  | semicolon => "SEMICOLON"
  | plus => "PLUS"
  | minus => "MINUS"
  | star => "STAR"
  | slash => "SLASH"
  | equal => "EQUAL"
  | notEqual => "NOT_EQUAL"
  | «let» => "LET"
  | «return» => "RETURN"
  | function => "FUNCTION"
  | endOfInput => "EOF"

def isKeyword : Fixed → Bool
  | «let» | «return» | function => true
  | _ => false

def ofPunctuation? : Char → Option Fixed
  | '(' => some leftParen
  | ')' => some rightParen
  | '\x7b' => some leftBrace
  | '\x7d' => some rightBrace
  | ',' => some comma
  | '.' => some dot
  | ';' => some semicolon
  | '+' => some plus
  | '-' => some minus
  | '*' => some star
  | '/' => some slash
  | _ => none

def keywords : List Fixed := [«let», function, «return»]

def ofKeyword? (word : String) : Option Fixed := keywords.find? (·.symbol == word)

end Fixed

inductive Kind where
  | fixed (f : Fixed)
  | ident
  | number
  | string
deriving DecidableEq, Repr

namespace Kind

def all : List Kind :=
  [.fixed .leftParen, .fixed .rightParen, .fixed .leftBrace, .fixed .rightBrace, .fixed .comma,
    .fixed .dot, .fixed .semicolon, .ident, .number, .string, .fixed .plus, .fixed .minus,
    .fixed .star, .fixed .slash, .fixed .equal, .fixed .notEqual, .fixed .«let»,
    .fixed .«return», .fixed .function, .fixed .endOfInput]

def label : Kind → String
  | fixed f => f.label
  | ident => "IDENT"
  | number => "NUMBER"
  | string => "STRING"

def symbol? : Kind → Option String
  | fixed f => some f.symbol
  | ident | number | string => none

def isKeyword : Kind → Bool
  | fixed f => f.isKeyword
  | ident | number | string => false

def ofLabel? (label : String) : Option Kind := all.find? (·.label == label)

end Kind

inductive Token where
  | fixed (f : Fixed)
  | ident (text : String)
  | number (value : UInt64)
  | string (text : String)
deriving DecidableEq, Repr

inductive TokenError where
  /-- Tokens of this category carry source text. -/
  | needsPayload (k : Kind)
  | notReserved (word : String)
deriving DecidableEq, Repr

def TokenError.message : TokenError → String
  | .needsPayload k => s!"{k.label} tokens carry source text, use a payload constructor"
  | .notReserved word => "`" ++ word ++ "` is not a reserved keyword"

namespace Token

def endOfInput : Token := .fixed .endOfInput

def ofKind? : Kind → Except TokenError Token
  | .fixed f => .ok (.fixed f)
  | k => .error (.needsPayload k)

def ofKeyword? (word : String) : Except TokenError Token :=
  match Fixed.ofKeyword? word with
  | some f => .ok (.fixed f)
  | none => .error (.notReserved word)

def kind : Token → Kind
  | .fixed f => .fixed f
  | .ident _ => .ident
  | .number _ => .number
  | .string _ => .string

def text? : Token → Option String
  | .fixed f => some f.symbol
  | .ident text | .string text => some text
  | .number _ => none

def int? : Token → Option UInt64
  | .number value => some value
  | .fixed _ | .ident _ | .string _ => none

def literal : Token → String
  | .fixed f => f.symbol
  | .ident text | .string text => text
  | .number value => toString value.toNat

/-- The token on one line. Only strings can hold anything that needs quoting. -/
def display : Token → String
  | .fixed f => f.label
  | .ident text => "IDENT(" ++ text ++ ")"
  | .number value => "NUMBER(" ++ toString value.toNat ++ ")"
  | .string text => "STRING(" ++ Text.quoted text ++ ")"

end Token
end ScriptLex
