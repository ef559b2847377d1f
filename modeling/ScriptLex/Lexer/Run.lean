import ScriptLex.Lexer.Progress

/-!
# Lexing whole sources

Scanning is repeated up to the end of input, either past errors or up to the
first one.
-/

namespace ScriptLex

namespace Lexer

def next (l : Lexer) : Option (Except LexError Token) × Lexer :=
  match _h : l.cursor.rest with
  | [] => (none, l)
  | _ :: _ =>
    let step := l.scanToken
    match step.answer with
    | .ok (some token) => (some (.ok token), step.lexer)
    | .ok none => step.lexer.next
    | .error e => (some (.error e), step.lexer)
termination_by l.cursor.rest.length
decreasing_by exact length_rest_scanToken_lt _h

theorem length_rest_next_lt {l : Lexer} {item : Except LexError Token}
    (h : l.next.1 = some item) : l.next.2.cursor.rest.length < l.cursor.rest.length := by
  fun_induction next l with
  | case1 l hr => simp at h
  | case2 l ch rest hr step token ht => exact length_rest_scanToken_lt hr
  | case3 l ch rest hr step ht ih => exact Nat.lt_trans (ih h) (length_rest_scanToken_lt hr)
  | case4 l ch rest hr step e ht => exact length_rest_scanToken_lt hr

/-- All tokens and errors up to the end of input, and the lexer there. -/
def items (l : Lexer) : List (Except LexError Token) × Lexer :=
  match _h : l.next.1 with
  | none => ([], l.next.2)
  | some item =>
    let later := l.next.2.items
    (item :: later.1, later.2)
termination_by l.cursor.rest.length
decreasing_by exact length_rest_next_lt _h

/-- All tokens up to the end of input, and the lexer there, unless there is an error. -/
def tokens? (l : Lexer) : Except LexError (List Token × Lexer) :=
  match _h : l.next.1 with
  | none => .ok ([], l.next.2)
  | some (.error e) => .error e
  | some (.ok token) =>
    match l.next.2.tokens? with
    | .ok (later, last) => .ok (token :: later, last)
    | .error e => .error e
termination_by l.cursor.rest.length
decreasing_by exact length_rest_next_lt _h

end Lexer

structure Lexed where
  tokens : List Token
  diagnostics : List Diagnostic
deriving DecidableEq, Repr

def lexWith (source : String) (options : Options) : Except LexError Lexed := do
  let lexer ← Lexer.start? source options
  let (tokens, last) ← lexer.tokens?
  let ending := if options.emitEnd then [Token.endOfInput] else []
  return ⟨tokens ++ ending, last.collector.diagnostics⟩

def lex (source : String) : Except LexError (List Token) := do
  let lexer ← Lexer.start? source {}
  let (tokens, _) ← lexer.tokens?
  return tokens

end ScriptLex
