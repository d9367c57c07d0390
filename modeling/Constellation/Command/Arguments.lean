set_option autoImplicit false

/-!
# Command line arguments

## Main definitions

* `OptionSpec`, `CommandSpec` — the options and positional arguments that a command knows.
* `Arguments` — what was given.
* `CommandSpec.read` — reads arguments.

## Design

An option has a long name, which comes after two dashes, and possibly a letter, which comes after
one. Its value is attached, perhaps after an equals sign, or is the next argument, which then must
not look like an option. Two dashes alone make all that follows positional. Arguments are read from
left to right, and the first fault decides; only at the end is anything found missing.
-/

namespace Constellation

/-- What an option does. -/
inductive OptionKind
  /-- It has a value, which passes a test. -/
  | value (accepts : String → Bool)
  /-- It is given or not. -/
  | flag
  /-- It shows a text instead of anything else. -/
  | inform

/-- An option that a command knows. -/
structure OptionSpec where
  /-- The name after two dashes. -/
  long : String
  /-- The letter after one dash. -/
  short : Option Char
  /-- What it does. -/
  kind : OptionKind
  /-- Whether it may be given more than once. -/
  repeatable : Bool
  /-- Whether it has to be given. -/
  required : Bool

/-- The arguments that a command knows. -/
structure CommandSpec where
  /-- The options. -/
  options : List OptionSpec
  /-- The number of positional arguments, each of which has to be given and passes a test. -/
  positionals : Nat
  /-- The test that positional arguments pass. -/
  acceptsPositional : String → Bool

/-- Why a command does not begin. -/
inductive ArgumentFault
  /-- The arguments are not those of the command. -/
  | usage
  /-- A text was asked for instead. -/
  | inform
  deriving DecidableEq, Repr

/-- What was given to a command, in order. -/
structure Arguments where
  /-- The options under their long names, with their values. -/
  options : List (String × String)
  /-- The positional arguments. -/
  positionals : List String
  deriving DecidableEq, Repr

namespace Arguments

/-- Nothing. -/
def empty : Arguments := ⟨[], []⟩

/-- The value of an option. -/
def value? (arguments : Arguments) (long : String) : Option String :=
  arguments.options.lookup long

/-- All values of an option. -/
def values (arguments : Arguments) (long : String) : List String :=
  arguments.options.filterMap fun (name, value) => if name == long then some value else none

/-- Whether an option was given. -/
def has (arguments : Arguments) (long : String) : Bool := (arguments.value? long).isSome

end Arguments

namespace CommandSpec

/-- Takes an option with its value, or with an empty text if it has none. -/
def take (option : OptionSpec) (value : String) (given : Arguments) :
    Except ArgumentFault Arguments :=
  if given.has option.long && !option.repeatable then .error .usage
  else
    let taken : Arguments := { given with options := given.options ++ [(option.long, value)] }
    match option.kind with
    | .value accepts => if accepts value then .ok taken else .error .usage
    | .flag => .ok taken
    | .inform => .error .inform

/-- Takes a positional argument. -/
def takePositional (spec : CommandSpec) (value : String) (given : Arguments) :
    Except ArgumentFault Arguments :=
  if given.positionals.length < spec.positionals && spec.acceptsPositional value then
    .ok { given with positionals := given.positionals ++ [value] }
  else .error .usage

/-- Takes positional arguments. -/
def takePositionals (spec : CommandSpec) :
    List String → Arguments → Except ArgumentFault Arguments
  | [], given => .ok given
  | value :: rest, given => do takePositionals spec rest (← spec.takePositional value given)

/-- What has been read, and the option whose value the next argument is to be. -/
abbrev Pending : Type := Arguments × Option OptionSpec

/-- Reads what follows a single dash. -/
def readLetters (spec : CommandSpec) : List Char → Arguments → Except ArgumentFault Pending
  | [], given => .ok (given, none)
  | c :: rest, given =>
    match spec.options.find? fun option => option.short == some c with
    | none => .error .usage
    | some option =>
      match option.kind, rest with
      | .value _, [] => .ok (given, some option)
      | .value _, '=' :: value => return (← take option (String.ofList value) given, none)
      | .value _, value => return (← take option (String.ofList value) given, none)
      | _, _ => do readLetters spec rest (← take option "" given)

/-- Reads what follows two dashes. -/
def readName (spec : CommandSpec) (text : List Char) (given : Arguments) :
    Except ArgumentFault Pending :=
  let name := String.ofList (text.takeWhile (· != '='))
  let attached : Option String :=
    match text.dropWhile (· != '=') with
    | [] => none
    | _ :: value => some (String.ofList value)
  match spec.options.find? fun option => option.long == name with
  | none => .error .usage
  | some option =>
    match option.kind, attached with
    | .value _, some value => return (← take option value given, none)
    | .value _, none => .ok (given, some option)
    | _, some _ => .error .usage
    | _, none => return (← take option "" given, none)

/-- Whether an argument looks like an option. -/
def looksLikeOption (text : List Char) : Bool := text.head? == some '-' && 1 < text.length

/-- Reads arguments from left to right, where `awaiting` is the option whose value is due. -/
def readFrom (spec : CommandSpec) :
    List String → (awaiting : Option OptionSpec) → Arguments → Except ArgumentFault Arguments
  | [], none, given => .ok given
  | [], some _, _ => .error .usage
  | argument :: rest, some option, given => do
    if looksLikeOption argument.toList then throw .usage
    readFrom spec rest none (← take option argument given)
  | argument :: rest, none, given =>
    match argument.toList with
    | ['-', '-'] => spec.takePositionals rest given
    | '-' :: '-' :: text => do
      let (given, awaiting) ← spec.readName text given
      readFrom spec rest awaiting given
    | '-' :: c :: letters => do
      let (given, awaiting) ← spec.readLetters (c :: letters) given
      readFrom spec rest awaiting given
    | _ => do readFrom spec rest none (← spec.takePositional argument given)

/-- Whether everything that has to be given is given. -/
def isSatisfied (spec : CommandSpec) (given : Arguments) : Bool :=
  given.positionals.length == spec.positionals &&
    spec.options.all fun option => !option.required || given.has option.long

/-- Reads the arguments of a command. -/
def read (spec : CommandSpec) (arguments : List String) : Except ArgumentFault Arguments := do
  let given ← spec.readFrom arguments none .empty
  if spec.isSatisfied given then pure given else throw .usage

end CommandSpec

end Constellation
