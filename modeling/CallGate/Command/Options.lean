/-!
# Options on a command line

The arguments of a command are read from left to right, and the first fault decides. An option has
a long name after two dashes and perhaps a letter after one dash; letters without values can be
joined. The value of an option follows after `=` or as the next argument. An argument that starts
with a dash is no value, unless the dash is all there is to it. After two dashes alone, nothing
counts as an option or as the name of a subcommand any more.
-/

namespace CallGate.Command

/-- What an option does. -/
inductive Arity where
  /-- It is given or not, at most once. -/
  | flag
  /-- It can be given any number of times. -/
  | counter
  /-- It takes a value, and is given at most once. -/
  | single
  /-- It takes a value, and can be given any number of times. -/
  | repeated
  /-- It asks for help instead of a run. -/
  | help
  /-- It asks for the version instead of a run. -/
  | version
deriving DecidableEq, Repr

/-- An option. -/
structure OptionSpec where
  /-- The name after two dashes. -/
  name : String
  /-- The letter after one dash. -/
  letter : Option Char := none
  /-- What the option does. -/
  arity : Arity
  /-- Which values the option takes. -/
  accepts : String → Bool := fun _ => true

/-- What can stand on one level of a command line. -/
structure Level where
  /-- The options. -/
  options : List OptionSpec
  /-- How many arguments there can be that are no options. -/
  positionals : Nat := 0
  /-- The names that lead to a level of their own. -/
  subcommands : List String := []

/-- What stands on one level of a command line. -/
structure Given where
  /-- The names of the options without values, the last one first. -/
  flags : List String := []
  /-- The names of the options with values and their values, the last one first. -/
  values : List (String × String) := []
  /-- The arguments that are no options, in order. -/
  positionals : List String := []

namespace Given

/-- Whether an option without a value is given. -/
def hasFlag (given : Given) (name : String) : Bool :=
  given.flags.contains name

/-- The value of an option. -/
def value? (given : Given) (name : String) : Option String :=
  given.values.lookup name

/-- All values of an option, in order. -/
def allValues (given : Given) (name : String) : List String :=
  ((given.values.filter fun entry => entry.1 == name).map Prod.snd).reverse

end Given

/-- Why the arguments of a level do not lead to a run. -/
inductive Stop where
  /-- They are against the rules. -/
  | misuse
  /-- They ask for help. -/
  | help
  /-- They ask for the version. -/
  | version
deriving DecidableEq, Repr

/-- What the arguments of a level are: all that is given, and, where a subcommand is named, its
name and the arguments after it. -/
structure Reading where
  given : Given
  subcommand : Option (String × List String) := none

/-- How far a level has been read. -/
structure Progress where
  given : Given := {}
  /-- The option that waits for its value. -/
  pending : Option OptionSpec := none
  /-- Whether two dashes alone have been seen. -/
  trailing : Bool := false

namespace Level

/-- Take an option without a value. -/
def takeFlag (given : Given) (spec : OptionSpec) : Except Stop Given :=
  match spec.arity with
  | .flag =>
    if given.hasFlag spec.name then .error .misuse
    else .ok { given with flags := spec.name :: given.flags }
  | .counter => .ok { given with flags := spec.name :: given.flags }
  | .help => .error .help
  | .version => .error .version
  | .single | .repeated => .error .misuse

/-- Take an option with its value. -/
def takeValue (given : Given) (spec : OptionSpec) (value : String) : Except Stop Given :=
  if spec.arity = .single ∧ (given.value? spec.name).isSome then .error .misuse
  else if spec.accepts value then
    .ok { given with values := (spec.name, value) :: given.values }
  else .error .misuse

/-- Whether an option takes a value. -/
def takesValue (spec : OptionSpec) : Bool :=
  spec.arity = .single || spec.arity = .repeated

/-- Take the options of joined letters. -/
def takeLetters (level : Level) (given : Given) : List Char → Except Stop Given
  | [] => .ok given
  | c :: rest => do
    match level.options.find? fun spec => spec.letter == some c with
    | none => throw .misuse
    | some spec => level.takeLetters (← takeFlag given spec) rest

/-- Take an option by its long name, after which `=` and a value may stand. -/
def takeLong (level : Level) (progress : Progress) (body : List Char) : Except Stop Progress := do
  let name := String.ofList (body.takeWhile (· != '='))
  match level.options.find? fun spec => spec.name == name, body.dropWhile (· != '=') with
  | none, _ => throw .misuse
  | some spec, [] =>
    if takesValue spec then return { progress with pending := some spec }
    else return { progress with given := ← takeFlag progress.given spec }
  | some spec, _ :: value =>
    -- Behind an equals sign even an empty text is a value.
    if takesValue spec then
      return { progress with given := ← takeValue progress.given spec (String.ofList value) }
    else throw .misuse

/-- Take an argument that is no option. -/
def takePositional (level : Level) (progress : Progress) (argument : String) :
    Except Stop Progress :=
  let positionals := progress.given.positionals ++ [argument]
  if positionals.length ≤ level.positionals then
    .ok { progress with given := { progress.given with positionals } }
  else .error .misuse

/-- Take one argument that names no subcommand. -/
def take (level : Level) (progress : Progress) (argument : String) : Except Stop Progress :=
  if progress.trailing then level.takePositional progress argument
  else
    match progress.pending, argument.toList with
    -- An option that waits takes the dash alone, but nothing else that starts with a dash.
    | some _, '-' :: _ :: _ => .error .misuse
    | some spec, _ => do
      return { progress with given := ← takeValue progress.given spec argument, pending := none }
    | none, ['-', '-'] => .ok { progress with trailing := true }
    | none, '-' :: '-' :: body => level.takeLong progress body
    | none, '-' :: c :: letters => do
      return { progress with given := ← level.takeLetters progress.given (c :: letters) }
    | none, _ => level.takePositional progress argument

/-- Whether an argument names a subcommand where it stands. -/
def isSubcommand (level : Level) (progress : Progress) (argument : String) : Bool :=
  -- A name behind an option that waits is the value of that option.
  !progress.trailing && progress.pending.isNone && level.subcommands.contains argument

/-- Read the arguments of a level from some point on. -/
def readFrom (level : Level) (progress : Progress) : List String → Except Stop Reading
  | [] => if progress.pending.isSome then .error .misuse else .ok { given := progress.given }
  | argument :: rest =>
    if level.isSubcommand progress argument then
      .ok { given := progress.given, subcommand := some (argument, rest) }
    else do
      level.readFrom (← level.take progress argument) rest

/-- Read the arguments of a level. -/
def read (level : Level) (arguments : List String) : Except Stop Reading :=
  level.readFrom {} arguments

end Level

end CallGate.Command
