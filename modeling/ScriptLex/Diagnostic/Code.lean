/-!
# Diagnostic codes

A letter for the severity and a number whose thousands name the phase; `1xxx`
belongs to lexing.
-/

namespace ScriptLex

structure Code where
  letter : String
  number : Nat
deriving DecidableEq, Repr

namespace Code

def text (c : Code) : String :=
  c.letter ++ String.ofList ((Nat.toDigits 10 c.number).leftpad 4 '0')

def emptyInput : Code := ⟨"E", 1001⟩
def unexpectedCharacter : Code := ⟨"E", 1002⟩
def unterminatedString : Code := ⟨"E", 1003⟩
def integerOverflow : Code := ⟨"E", 1004⟩

def droppedInput : Code := ⟨"W", 1001⟩

def wrappedInteger : Code := ⟨"W", 1002⟩

def openString : Code := ⟨"W", 1003⟩

end Code
end ScriptLex
