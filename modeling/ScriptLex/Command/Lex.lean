import ScriptLex.Command.Basic
import ScriptLex.Config
import ScriptLex.Files.Access
import ScriptLex.Lexer.Run
import ScriptLex.Output.Format

/-!
# The lex command

Reads a source and prints its tokens. What the command line leaves open is
taken from the configuration.
-/

namespace ScriptLex

inductive SourceInput where
  | file (path : String)
  | inline (text : String)
deriving DecidableEq, Repr

structure LexCommand where
  input : SourceInput
  lenient : Bool := false
  strict : Bool := false
  emitEnd : Bool := false
  format? : Option String := none
deriving DecidableEq, Repr

namespace LexCommand

/-- Flags win over the configuration, and lenient over strict. -/
def options (c : LexCommand) (config : Config) : Except Failure Options := do
  let mode ←
    if c.lenient then .ok .lenient
    else if c.strict then .ok .strict
    else (Mode.parse? config.mode).mapError .unknownMode
  return { mode, emitEnd := c.emitEnd || config.emitEnd }

def outputFormat (c : LexCommand) (config : Config) : Except Failure OutputFormat :=
  let name := c.format?.getD config.format
  match OutputFormat.ofName? name with
  | some format => .ok format
  | none => .error (.unknownFormat name)

def readSource {m : Type → Type} [Monad m] [FileAccess m] : SourceInput → CommandM m String
  | .inline text => return text
  | .file path => do
    match ← (FileAccess.readText path : m _) with
    | .ok text => return text
    | .error cause => throw (.unreadableSource path cause)

def started (options : Options) (source : String) : Log.Event where
  severity := .debug
  message := "lexing source"
  fields := [("mode", options.mode.name), ("emit_eof", toString options.emitEnd),
    ("bytes", toString source.utf8ByteSize)]

def noticed (d : Diagnostic) : Log.Event where
  severity := .debug
  message := d.message
  fields := [("at", d.span.place)]

def finished (options : Options) (lexed : Lexed) : Log.Event where
  severity := .debug
  message := "lexing finished"
  fields := [("mode", options.mode.name), ("tokens", toString lexed.tokens.length),
    ("warnings", toString lexed.diagnostics.length)]

def warned (d : Diagnostic) : Log.Event where
  severity := .warn
  message := d.summary

/-- Lexes a source and prints its tokens. Every warning becomes a log line once the whole source is
lexed. -/
def printTokens {m : Type → Type} [Monad m] (options : Options) (format : OutputFormat)
    (source : String) : CommandM m Unit := do
  CommandM.log [started options source]
  match lexWith source options with
  | .error e => throw (.lexical e source)
  | .ok lexed =>
    CommandM.log (lexed.diagnostics.map noticed)
    CommandM.log [finished options lexed]
    CommandM.log (lexed.diagnostics.map warned)
    CommandM.print (Token.write lexed.tokens format)

def steps {m : Type → Type} [Monad m] [FileAccess m] (c : LexCommand) (config : Config) :
    CommandM m Unit := do
  let options ← c.options config
  let format ← c.outputFormat config
  let source ← readSource c.input
  printTokens options format source

/-- Mode, format, source and tokens are settled in this order, and the first failure is the one
that counts. -/
def run {m : Type → Type} [Monad m] [FileAccess m] (c : LexCommand) (config : Config) :
    m Execution :=
  (c.steps config).execute

end LexCommand
end ScriptLex
