import ScriptLex.Command.Option

/-!
# Arguments

Arguments are read from left to right. An option whose value is the next
argument, and that value, are judged only when the argument after them is
taken up.
-/

namespace ScriptLex.CommandLine

inductive UsageError where
  | unknownArgument (arg : String)
  | missingValue (opt : Opt)
  | emptyPath
  | repeated (opt : Opt)
  /-- A value for an option that takes none. -/
  | unexpectedValue (opt : Opt)
  | noCommand
  | noSource
  | conflict
  /-- An environment variable that is neither `true` nor `false`. -/
  | notBoolean (value : String)
deriving DecidableEq, Repr

/-- A summary. The usage text that a user gets to read is left out. -/
def UsageError.message : UsageError → String
  | unknownArgument arg => "unknown argument `" ++ arg ++ "`"
  | missingValue opt => "--" ++ opt.long ++ " needs a value"
  | emptyPath => "a path cannot be empty"
  | repeated opt => "--" ++ opt.long ++ " is given twice"
  | unexpectedValue opt => "--" ++ opt.long ++ " takes no value"
  | noCommand => "a command is needed: lex or config"
  | noSource => "a source file or --expr is needed"
  | conflict => "arguments contradict each other"
  | notBoolean value => "`" ++ value ++ "` is neither true nor false"

inductive Stop where
  | usage (e : UsageError)
  | version (s : Scope)
deriving DecidableEq, Repr

/-- What the last argument leaves to be settled by the next one. -/
inductive Pending where
  | nothing
  /-- An option that still waits for its value. -/
  | waiting (opt : Opt)
  | value (opt : Opt) (text : String)
  | source (path : String)
deriving DecidableEq, Repr

structure Arguments where
  flags : List Opt := []
  values : List (Opt × String) := []
  source? : Option String := none
  pending : Pending := .nothing
  /-- Behind a double dash nothing is an option. -/
  literal : Bool := false
deriving DecidableEq, Repr

namespace Arguments

def value? (a : Arguments) (opt : Opt) : Option String := a.values.lookup opt

def has (a : Arguments) (opt : Opt) : Bool := a.flags.contains opt || (a.value? opt).isSome

def setValue (a : Arguments) (opt : Opt) (text : String) : Except Stop Arguments :=
  if a.has opt then .error (.usage (.repeated opt))
  else if opt.isPath && text.isEmpty then .error (.usage .emptyPath)
  else .ok { a with values := (opt, text) :: a.values }

def settle (a : Arguments) : Except Stop Arguments :=
  match a.pending with
  | .nothing => .ok a
  | .waiting opt => .error (.usage (.missingValue opt))
  | .value opt text => { a with pending := .nothing }.setValue opt text
  | .source path =>
    if path.isEmpty then .error (.usage .emptyPath)
    else .ok { a with source? := some path, pending := .nothing }

def setFlag (s : Scope) (opt : Opt) (a : Arguments) : Except Stop Arguments := do
  let a ← a.settle
  if opt = .version then .error (.version s)
  else if a.has opt then .error (.usage (.repeated opt))
  else .ok { a with flags := opt :: a.flags }

/-- An option with a value in the same argument, or one that waits for the next argument. -/
def setOption (opt : Opt) (attached : Option String) (a : Arguments) : Except Stop Arguments := do
  let a ← a.settle
  match attached with
  | some text => a.setValue opt text
  | none => .ok { a with pending := .waiting opt }

def long (s : Scope) (body : List Char) (a : Arguments) : Except Stop Arguments :=
  let name := String.ofList (body.takeWhile (· ≠ '='))
  let attached := match body.dropWhile (· ≠ '=') with
    | _ :: text => some (String.ofList text)
    | [] => none
  match s.ofLong? name with
  | none => .error (.usage (.unknownArgument name))
  | some opt =>
    if opt.takesValue then a.setOption opt attached
    else if attached.isSome then .error (.usage (.unexpectedValue opt))
    else a.setFlag s opt

/-- Letters behind a single dash. A letter that takes a value ends them: what follows is the value,
with or without an equals sign. -/
def short (s : Scope) : List Char → Arguments → Except Stop Arguments
  | [], a => .ok a
  | c :: body, a =>
    match s.ofShort? c with
    | none => .error (.usage (.unknownArgument (String.singleton c)))
    | some opt =>
      if opt.takesValue then
        a.setOption opt (match body with
          | [] => none
          | '=' :: text => some (String.ofList text)
          | text => some (String.ofList text))
      else
        (a.setFlag s opt).bind (short s body)

def positional (s : Scope) (arg : String) (a : Arguments) : Except Stop Arguments := do
  let a ← a.settle
  if s = .lex ∧ a.source?.isNone then
    .ok { a with pending := .source arg }
  else
    .error (.usage (.unknownArgument arg))

def isWaiting (a : Arguments) : Bool := a.pending matches .waiting _

def add (s : Scope) (arg : String) (a : Arguments) : Except Stop Arguments :=
  if a.literal then a.positional s arg
  else match arg.toList with
    | ['-', '-'] => .ok { a with literal := true }
    | '-' :: '-' :: body => a.long s body
    | '-' :: c :: body => a.short s (c :: body)
    | _ =>
      match a.pending with
      | .waiting opt => .ok { a with pending := .value opt arg }
      | _ => a.positional s arg

end Arguments

end ScriptLex.CommandLine
