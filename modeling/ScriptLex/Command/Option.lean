/-!
# Options

What can be written on a command line, and where. Common options may stand
before the name of a command and behind it. Help is left out, both the options
`--help` and `-h` and the command `help`: who asks for it here gets a usage
error.
-/

namespace ScriptLex.CommandLine

inductive Opt where
  | verbose | config | noColor | version
  | expr | lenient | strict | emitEnd | format
  | write
deriving DecidableEq, Repr

namespace Opt

def long : Opt → String
  | verbose => "verbose"
  | config => "config"
  | noColor => "no-color"
  | version => "version"
  | expr => "expr"
  | lenient => "lenient"
  | strict => "strict"
  | emitEnd => "emit-eof"
  | format => "format"
  | write => "write"

def short? : Opt → Option Char
  | verbose => some 'v'
  | config => some 'c'
  | version => some 'V'
  | expr => some 'e'
  | format => some 'F'
  | write => some 'w'
  | noColor | lenient | strict | emitEnd => none

def takesValue : Opt → Bool
  | config | expr | format | write => true
  | verbose | noColor | version | lenient | strict | emitEnd => false

/-- Paths have at least one character. -/
def isPath : Opt → Bool
  | config | write => true
  | _ => false

end Opt

inductive Scope where
  | tool
  | lex
  | config
deriving DecidableEq, Repr

namespace Scope

def common : List Opt := [.verbose, .config, .noColor, .version]

def options : Scope → List Opt
  | tool => common
  | lex => common ++ [.expr, .lenient, .strict, .emitEnd, .format]
  | config => common ++ [.write]

def ofCommand? (name : String) : Option Scope :=
  if name = "lex" then some lex
  else if name = "config" then some config
  else none

def title : Scope → String
  | tool => "arjit"
  | lex => "arjit-lex"
  | config => "arjit-config"

def ofLong? (s : Scope) (name : String) : Option Opt := s.options.find? (·.long == name)

def ofShort? (s : Scope) (c : Char) : Option Opt := s.options.find? (·.short? == some c)

end Scope

end ScriptLex.CommandLine
