import ScriptLex.Command.Arguments
import ScriptLex.Command.Config
import ScriptLex.Command.Lex

/-!
# Command lines

The arguments of the tool, the name of a command, and the arguments of that
command, with the environment behind both.
-/

namespace ScriptLex.CommandLine

structure Environment where
  verbose? : Option String := none
  config? : Option String := none
  noColor? : Option String := none
deriving DecidableEq, Repr

structure Common where
  verbose : Bool
  config? : Option String
  noColor : Bool
deriving DecidableEq, Repr

def switch? : String → Except Stop Bool
  | "true" => .ok true
  | "false" => .ok false
  | value => .error (.usage (.notBoolean value))

/-- A switch of the environment. It is judged only where the flag is missing. -/
def environmentSwitch (a : Arguments) (opt : Opt) (setting? : Option String) :
    Except Stop Bool :=
  match setting? with
  | some value => if a.has opt then .ok false else switch? value
  | none => .ok false

def environmentPath (a : Arguments) (opt : Opt) (setting? : Option String) :
    Except Stop (Option String) :=
  match setting? with
  | some path =>
    if a.has opt then .ok none
    else if path.isEmpty then .error (.usage .emptyPath)
    else .ok (some path)
  | none => .ok none

def fromEnvironment (a : Arguments) (env : Environment) : Except Stop Common := do
  return {
    verbose := ← environmentSwitch a .verbose env.verbose?
    config? := ← environmentPath a .config env.config?
    noColor := ← environmentSwitch a .noColor env.noColor? }

inductive Command where
  | lex (c : LexCommand)
  | config (c : ConfigCommand)
deriving DecidableEq, Repr

def lexCommand (a : Arguments) : Except Stop Command := do
  let input ← match a.value? .expr, a.source? with
    | some _, some _ => .error (.usage .conflict)
    | some text, none => .ok (.inline text)
    | none, some path => .ok (.file path)
    | none, none => .error (.usage .noSource)
  if a.has .lenient && a.has .strict then .error (.usage .conflict)
  else .ok (.lex {
    input
    lenient := a.has .lenient
    strict := a.has .strict
    emitEnd := a.has .emitEnd
    format? := a.value? .format })

def command (s : Scope) (a : Arguments) : Except Stop Command :=
  match s with
  | .lex => lexCommand a
  | .config => .ok (.config { writeTo? := a.value? .write })
  | .tool => .error (.usage .noCommand)

structure Invocation where
  common : Common
  command : Command
deriving DecidableEq, Repr

/-- Joins both sides of a command's name. The command line wins over the environment, and its later
part over the earlier one. -/
def join (tool inner : Arguments) (toolEnv innerEnv : Common) : Common where
  verbose := tool.has .verbose || inner.has .verbose || toolEnv.verbose || innerEnv.verbose
  config? := inner.value? .config <|> tool.value? .config <|> innerEnv.config? <|> toolEnv.config?
  noColor := tool.has .noColor || inner.has .noColor || toolEnv.noColor || innerEnv.noColor

def readCommand (s : Scope) (args : List String) (env : Environment) :
    Except Stop (Arguments × Common × Command) := do
  let a ← args.foldlM (fun (a : Arguments) arg => a.add s arg) {}
  let a ← a.settle
  let common ← fromEnvironment a env
  return (a, common, ← command s a)

/-- Reads the arguments of the tool up to the name of a command and the rest with the command. What
the last argument before that name left open is settled only after the command is read. -/
def readTool (env : Environment) (a : Arguments) : List String → Except Stop Invocation
  | [] => do
    let _ ← a.settle
    .error (.usage .noCommand)
  | arg :: args =>
    match if a.literal || a.isWaiting then none else Scope.ofCommand? arg with
    | some s => do
      let (inner, innerEnv, command) ← readCommand s args env
      let a ← a.settle
      let toolEnv ← fromEnvironment a env
      return { common := join a inner toolEnv innerEnv, command }
    | none => (a.add .tool arg).bind fun a => readTool env a args

def read (args : List String) (env : Environment) : Except Stop Invocation :=
  readTool env {} args

end ScriptLex.CommandLine
