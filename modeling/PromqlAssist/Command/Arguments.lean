import PromqlAssist.Command.Basic
import PromqlAssist.Format.Decimal

/-!
# Arguments

Options have a long name behind two hyphens and perhaps a short one behind one. A value follows an
option in the next argument, or in the same one behind an equals sign or a short name. What starts
with a hyphen is no value and no operand, unless it is a hyphen alone or comes behind two hyphens
alone. No option may be given twice.
-/

namespace PromqlAssist

/-- What follows an option. -/
inductive OptionArity where
  | flag
  | value
  /-- A value or none; none counts as the empty text. -/
  | valueOrNone
deriving DecidableEq, Repr

structure OptionForm where
  long : Text
  short? : Option Char
  arity : OptionArity
  accepts : Text → Bool

namespace OptionForm

def isNonempty (t : Text) : Bool :=
  !t.isEmpty

/-- The path of the settings, which may be given in front of the command or behind it. -/
def config : OptionForm :=
  ⟨"config".toList, some 'c', .value, isNonempty⟩

def file : OptionForm :=
  ⟨"file".toList, some 'f', .value, isNonempty⟩

/-- Offsets are below 2 ^ 64. -/
def cursorLimit : Nat :=
  Nat.pow 2 64

def cursor : OptionForm :=
  ⟨"cursor".toList, none, .value, fun t => (Decimal.parse? cursorLimit t).isSome⟩

def json : OptionForm :=
  ⟨"json".toList, none, .flag, fun _ => true⟩

def websocket : OptionForm :=
  ⟨"websocket".toList, none, .valueOrNone, fun _ => true⟩

end OptionForm

/-- The options and operands of one command. -/
structure GivenArguments where
  /-- Values by the long names of their options. -/
  options : List (Text × Text)
  operands : List Text
deriving DecidableEq, Repr

namespace GivenArguments

def empty : GivenArguments :=
  ⟨[], []⟩

def value? (g : GivenArguments) (form : OptionForm) : Option Text :=
  g.options.lookup form.long

def has (g : GivenArguments) (form : OptionForm) : Bool :=
  (g.value? form).isSome

/-- Adds the value of an option that is not there yet. -/
def addOption (g : GivenArguments) (form : OptionForm) (value : Text) :
    Except ArgumentStop GivenArguments :=
  if g.has form || !form.accepts value then .error .usage
  else .ok { g with options := g.options ++ [(form.long, value)] }

/-- Adds operands, of which there may be `limit`. -/
def addOperands (g : GivenArguments) (limit : Nat) (operands : List Text) :
    Except ArgumentStop GivenArguments :=
  if limit < g.operands.length + operands.length then .error .usage
  else .ok { g with operands := g.operands ++ operands }

end GivenArguments

/-- The options and operands that a command takes. -/
structure CommandForm where
  options : List OptionForm
  operandLimit : Nat
  /-- Whether the options end at the first operand, which names a command. -/
  namesCommand : Bool

namespace CommandForm

def main : CommandForm :=
  ⟨[.config], 0, true⟩

def check : CommandForm :=
  ⟨[.config, .file], 1, false⟩

def complete : CommandForm :=
  ⟨[.config, .cursor, .json], 1, false⟩

def templates : CommandForm :=
  ⟨[.config, .json], 0, false⟩

def serve : CommandForm :=
  ⟨[.config, .websocket], 0, false⟩

/-- Whether an argument may be a value or an operand. -/
def isPlain : Text → Bool
  | ['-'] => true
  | '-' :: _ => false
  | _ => true

/-- An argument that starts with a hyphen: an option with the value that stands in the same
argument, if there is one. -/
def option? (form : CommandForm) (arg : Text) : Except ArgumentStop (OptionForm × Option Text) :=
  match arg with
  | '-' :: '-' :: written =>
    let (name, value?) := match Text.splitAt? ['='] written with
      | some (name, value) => (name, some value)
      | none => (written, none)
    if name = "help".toList then .error (if value?.isSome then .usage else .help)
    else if form.namesCommand && name = "version".toList then
      .error (if value?.isSome then .usage else .version)
    else
      match form.options.find? fun o => o.long = name with
      | some o => .ok (o, value?)
      | none => .error .usage
  | '-' :: c :: more =>
    if c = 'h' then .error .help
    else if form.namesCommand && c = 'V' then .error .version
    else
      match form.options.find? fun o => o.short? = some c with
      | some o =>
        .ok (o, match more with
          | [] => none
          | '=' :: value => some value
          | value => some value)
      | none => .error .usage
  | _ => .error .usage

/-- Reads arguments. Returns those from the name of a command on. -/
def read (form : CommandForm) (given : GivenArguments) :
    List Text → Except ArgumentStop (GivenArguments × List Text)
  | [] => .ok (given, [])
  | arg :: args =>
    if arg = ['-', '-'] then
      if form.namesCommand then .error .usage
      else (given.addOperands form.operandLimit args).map fun g => (g, [])
    else if isPlain arg then
      if form.namesCommand then .ok (given, arg :: args)
      else do read form (← given.addOperands form.operandLimit [arg]) args
    else do
      let (o, value?) ← form.option? arg
      match o.arity, value? with
      | .flag, some _ => .error .usage
      | .flag, none => read form (← given.addOption o []) args
      | _, some value => read form (← given.addOption o value) args
      | arity, none =>
        match args with
        | next :: rest =>
          if isPlain next then read form (← given.addOption o next) rest
          else if arity = .value then .error .usage
          else read form (← given.addOption o []) (next :: rest)
        | [] =>
          if arity = .value then .error .usage
          else (given.addOption o []).map fun g => (g, [])

/-- Reads the arguments of a command behind its name. -/
def readAll (form : CommandForm) (args : List Text) : Except ArgumentStop GivenArguments :=
  (form.read .empty args).map (·.1)

end CommandForm

namespace Invocation

def commandNames : List String :=
  ["check", "complete", "templates", "lsp"]

/-- The command of a name and its arguments, with the settings that it names. -/
def ofCommand (name : String) (args : List Text) :
    Except ArgumentStop (Option Text × Command) := do
  match name with
  | "check" =>
    let g ← CommandForm.check.readAll args
    let source ← match g.operands, g.value? .file with
      | query :: _, none => pure (QuerySource.given query)
      | [], some path => pure (.file path)
      | [], none => pure .input
      | _ :: _, some _ => .error .usage
    return (g.value? .config, .check source)
  | "complete" =>
    let g ← CommandForm.complete.readAll args
    match g.operands with
    | query :: _ =>
      let cursor? := (g.value? .cursor).bind (Decimal.parse? OptionForm.cursorLimit)
      return (g.value? .config, .complete query cursor? (g.has .json))
    | [] => .error .usage
  | "templates" =>
    let g ← CommandForm.templates.readAll args
    return (g.value? .config, .templates (g.has .json))
  | "lsp" =>
    let g ← CommandForm.serve.readAll args
    let place := match g.value? .websocket with
      | none => ServerPlace.standardStreams
      | some [] => .configuredSocket
      | some written => .socket written
    return (g.value? .config, .serve place)
  | "help" =>
    match args with
    | [] => .error .help
    | topic :: _ => .error (if String.ofList topic ∈ commandNames then .help else .usage)
  | _ => .error .usage

/-- Reads the arguments of the program. Settings that are named behind the command count more than
those named in front of it. -/
def ofArguments (args : List Text) : Except ArgumentStop Invocation := do
  match ← CommandForm.main.read .empty args with
  | (_, []) => .error .usage
  | (g, name :: rest) =>
    let (config?, command) ← ofCommand (String.ofList name) rest
    return ⟨config?.or (g.value? .config), command⟩

end Invocation

end PromqlAssist
