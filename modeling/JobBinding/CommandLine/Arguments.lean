import JobBinding.Environment
import JobBinding.Workflow.Project

/-!
# Arguments

What a call of the program asks for. A call has two levels, the program's own and that of a command,
and the global options can stand at either. Each option can be given once at a level, as
`--name value` or as `--name=value`; a value that follows its option is looked at when the next
option comes or the level ends, an attached value at once. What the command's level says counts
before the program's level, and both count before the environment.
-/

namespace JobBinding.CommandLine

/-! ## Calls -/

/-- When output has colors. -/
inductive Colors where
  /-- If it goes to a terminal. -/
  | auto
  | always
  | never
  deriving DecidableEq, Repr

/-- In which form results are printed. -/
inductive OutputMode where
  /-- Lines and tables. -/
  | terminal
  /-- Values of JSON. -/
  | json
  deriving DecidableEq, Repr

/-- The options of every command. -/
structure Globals where
  clusters : Option String
  colors : Colors
  outputMode : OutputMode
  debug : Bool
  deriving DecidableEq, Repr

inductive Command where
  | init (cluster : Option String) (directory : String) (options : Project.Options)
  | execute (action : String) (directories : List String)
  | summary (path : String)
  | cluster
  | completion (shell : String)
  deriving DecidableEq, Repr

/-- What a call asks for. -/
inductive Call where
  | run (globals : Globals) (command : Command)
  | help
  | version
  /-- The arguments are wrong. -/
  | refused
  deriving DecidableEq, Repr

/-! ## Levels -/

/-- Which values an option or an operand takes. -/
inductive Kind where
  | text
  /-- A text that is not empty. -/
  | path
  | oneOf (values : List String)
  deriving DecidableEq, Repr

def Kind.takes : Kind → String → Bool
  | .text, _ => true
  | .path, value => value ≠ ""
  | .oneOf values, value => values.contains value

/-- What can stand at a level: options with their kinds, and operands. A level without bound takes
any number of the last operand. -/
structure Grammar where
  isRoot : Bool
  options : List (String × Kind)
  operands : List Kind
  unbounded : Bool
  required : Nat
  deriving DecidableEq, Repr

namespace Grammar

def globalOptions : List (String × Kind) :=
  [("clusters", .path), ("colors", .oneOf ["auto", "always", "never"]),
    ("output-mode", .oneOf ["cli", "json"])]

/-- The program's own level. -/
def root : Grammar :=
  ⟨true, globalOptions, [], false, 0⟩

/-- The shells for which a completion script can be printed. -/
def shells : List String :=
  ["bash", "elvish", "fish", "powershell", "zsh"]

/-- The level of a command. -/
def ofCommand? (name : String) : Option Grammar :=
  match name with
  | "init" =>
    some ⟨false, globalOptions ++
      [("cluster", .text), ("account", .text), ("setup", .text), ("program", .text),
        ("directory", .path)], [], false, 0⟩
  | "execute" => some ⟨false, globalOptions, [.text, .text], true, 2⟩
  | "summary" => some ⟨false, globalOptions, [.path], false, 0⟩
  | "cluster" => some ⟨false, globalOptions, [], false, 0⟩
  | "generate-completion" => some ⟨false, globalOptions, [.oneOf shells], false, 1⟩
  | _ => none

/-- The kind of an operand by its place. -/
def operand? (g : Grammar) (index : Nat) : Option Kind :=
  match g.operands[index]? with
  | some kind => some kind
  | none => if g.unbounded then g.operands.getLast? else none

end Grammar

/-- What was found at a level so far. -/
structure Level where
  /-- The options with their values. -/
  values : List (String × String)
  debug : Bool
  operands : List String
  /-- An option whose value follows it, and the value once it has come. -/
  pending : Option (String × Option String)
  /-- Whether only operands follow. -/
  onlyOperands : Bool
  deriving DecidableEq, Repr

namespace Level

/-- A level before its first argument. -/
def empty : Level :=
  ⟨[], false, [], none, false⟩

/-- Gives an option its value. -/
def give (level : Level) (g : Grammar) (name value : String) : Except Call Level :=
  match g.options.find? (·.1 = name) with
  | some (_, kind) =>
    if kind.takes value && !(level.values.any (·.1 = name)) then
      .ok { level with values := level.values ++ [(name, value)] }
    else .error .refused
  | none => .error .refused

/-- Whether all operands are of their kinds. -/
def operandsFit (level : Level) (g : Grammar) : Bool :=
  (level.operands.zipIdx).all fun (value, index) =>
    (g.operand? index).any (·.takes value)

/-- Looks at the values that have been waiting. -/
def settle (level : Level) (g : Grammar) : Except Call Level := do
  if !level.operandsFit g then throw .refused
  match level.pending with
  | none => return level
  | some (_, none) => throw .refused
  | some (name, some value) =>
    let rest := { level with pending := none }
    rest.give g name value

/-- An option with a long name, and its attached value. -/
def long (level : Level) (g : Grammar) (name : String) (value : Option String) :
    Except Call Level := do
  if name = "help" ∨ (name = "version" ∧ g.isRoot) ∨ name = "debug" then
    if value.isSome then throw .refused
    let level ← level.settle g
    if name = "help" then throw .help
    if name = "version" then throw .version
    if level.debug then throw .refused
    return { level with debug := true }
  if !(g.options.any (·.1 = name)) then throw .refused
  let level ← level.settle g
  match value with
  | some value => level.give g name value
  | none => return { level with pending := some (name, none) }

def short (level : Level) (g : Grammar) (letter : Char) : Except Call Level := do
  let _ ← level.settle g
  if letter = 'h' then throw .help
  if letter = 'V' ∧ g.isRoot then throw .version
  throw .refused

/-- An argument that is no option. -/
def operand (level : Level) (g : Grammar) (value : String) : Except Call Level := do
  match g.operand? level.operands.length with
  | none => throw .refused
  | some _ =>
    let level ← level.settle g
    return { level with operands := level.operands ++ [value] }

/-- Whether the next argument is the value of the option before it, unless it is an option. -/
def awaits (level : Level) : Bool :=
  match level.pending with
  | some (_, none) => true
  | _ => false

/-- The name of a long option and its attached value. -/
def divide (cs : List Char) : String × Option String :=
  let name := String.ofList (cs.takeWhile (· ≠ '='))
  match cs.dropWhile (· ≠ '=') with
  | [] => (name, none)
  | _ :: value => (name, some (String.ofList value))

/-- The level after one more argument. -/
def add (level : Level) (g : Grammar) (argument : String) : Except Call Level :=
  if level.onlyOperands then level.operand g argument
  else match argument.toList with
    | ['-', '-'] => .ok { level with onlyOperands := true }
    | '-' :: '-' :: cs => level.long g (divide cs).1 (divide cs).2
    | '-' :: c :: _ => level.short g c
    | _ => match level.pending with
      | some (name, none) => .ok { level with pending := some (name, some argument) }
      | _ => level.operand g argument

def ofArguments (g : Grammar) (level : Level) : List String → Except Call Level
  | [] => do
    let level ← level.settle g
    if level.operands.length < g.required then throw .refused
    return level
  | argument :: rest => do ofArguments g (← level.add g argument) rest

def value? (level : Level) (name : String) : Option String :=
  (level.values.find? (·.1 = name)).map (·.2)

end Level

/-! ## The two levels together -/

/-- The variables that stand for options with a value. -/
def optionVariables : List (String × String) :=
  [("clusters", "BINDCHECK_CLUSTERS"), ("output-mode", "BINDCHECK_OUTPUT_MODE")]

/-- Stands for the option `--debug`. -/
def debugVariable : String := "BINDCHECK_DEBUG"

/-- The value of a variable that stands for an option. It matters, and must then be of its kind,
unless the option is given at both levels. -/
def variableValue (env : Environment) (kind : Kind) (variableName : String) (given : Bool) :
    Except Call (Option String) :=
  match env variableName with
  | none => .ok none
  | some value => if given || kind.takes value then .ok (some value) else .error .refused

def globalValue (env : Environment) (root sub : Level) (name : String) :
    Except Call (Option String) := do
  let given := (root.value? name).isSome && (sub.value? name).isSome
  let fallback ← match optionVariables.find? (·.1 = name), Grammar.globalOptions.find? (·.1 = name) with
    | some (_, variableName), some (_, kind) => variableValue env kind variableName given
    | _, _ => .ok none
  return ((sub.value? name).orElse fun _ => root.value? name).orElse fun _ => fallback

def globalsOf (env : Environment) (root sub : Level) : Except Call Globals := do
  let clusters ← globalValue env root sub "clusters"
  let colors ← globalValue env root sub "colors"
  let outputMode ← globalValue env root sub "output-mode"
  let debug ← variableValue env (.oneOf ["true", "false"]) debugVariable (root.debug && sub.debug)
  return {
    clusters
    colors := if colors = some "always" then .always
      else if colors = some "never" then .never else .auto
    outputMode := if outputMode = some "json" then .json else .terminal
    debug := root.debug || sub.debug || debug = some "true" }

def commandOf (name : String) (level : Level) : Command :=
  match name, level.operands with
  | "init", _ =>
    .init (level.value? "cluster") ((level.value? "directory").getD ".")
      ⟨(level.value? "program").getD Workflow.defaultProgram, level.value? "account",
        level.value? "setup"⟩
  | "execute", action :: directories => .execute action directories
  | "generate-completion", shell :: _ => .completion shell
  | "summary", path :: _ => .summary path
  | "summary", [] => .summary "."
  | _, _ => .cluster

/-- The call of a command's level, below the program's level. -/
def subCall (env : Environment) (root : Level) (name : String) (g : Grammar)
    (arguments : List String) : Except Call Call := do
  let sub ← Level.ofArguments g .empty arguments
  let root ← root.settle .root
  return .run (← globalsOf env root sub) (commandOf name sub)

/-- The call of the arguments after a part of the program's level. -/
def rootCall (env : Environment) (root : Level) : List String → Except Call Call
  | [] => .error .refused
  | argument :: rest =>
    match if root.onlyOperands || root.awaits then none else Grammar.ofCommand? argument with
    | some g => subCall env root argument g rest
    | none => do rootCall env (← root.add .root argument) rest

/-- What a call with some arguments asks for. -/
def Call.ofArguments (env : Environment) (arguments : List String) : Call :=
  match rootCall env .empty arguments with
  | .ok call => call
  | .error call => call

end JobBinding.CommandLine
