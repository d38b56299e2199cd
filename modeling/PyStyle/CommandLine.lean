import PyStyle.Rule

/-!
# Command lines

Options have a long name and perhaps a letter, letters can be joined, and a value follows
its option, perhaps behind an equals sign. Behind two dashes nothing is an option.

- `OptionSpec`, `CommandSpec` — what a command accepts;
- `UsageError` — why words are no invocation, or what they ask to be shown instead;
- `Reader` — the state between two words;
- `CommandSpec.read` — the arguments in the words of a command.
-/

namespace PyStyle

/-- How results are written. -/
inductive OutputFormat where
  | pretty
  | json
deriving DecidableEq, Repr, Inhabited

/-- Why words are no invocation, or what they ask to be shown instead of running. -/
inductive UsageError where
  | unknownArgument
  | invalidSubcommand
  | invalidValue
  | valueValidation
  | missingArgument
  | missingSubcommand
  /-- An option is given twice. -/
  | repeatedArgument
  /-- A value is given to an option that takes none. -/
  | unexpectedValue
  | help
  | version
  /-- No words at all: the help is shown, but as an error. -/
  | helpInstead
deriving DecidableEq, Repr

/-- The exit code of a run that stops at its words. -/
def UsageError.exitCode : UsageError → Nat
  | help => 0
  | version => 0
  | _ => 2

/-! ### Values -/

/-- What kind of value an option takes. -/
inductive ValueKind where
  | path
  | text
  | format
  /-- A number of at most 32 bits. -/
  | count
deriving DecidableEq, Repr

/-- The value of an argument. -/
inductive ArgumentValue where
  | given
  | path (path : String)
  | text (text : String)
  | format (format : OutputFormat)
  | count (value : Nat)
deriving DecidableEq, Repr

/-- The number that a word spells, perhaps with a sign. -/
def signedNatural? (word : List Char) : Option Nat :=
  let (isNegative, digits) := match word with
    | '+' :: rest => (false, rest)
    | '-' :: rest => (true, rest)
    | _ => (false, word)
  if digits.isEmpty || !digits.all Text.isAsciiDigit then none
  else if isNegative && decimalValue digits != 0 then none
  else some (decimalValue digits)

/-- The value that a word gives to an option. -/
def ValueKind.read (word : String) : ValueKind → Except UsageError ArgumentValue
  | path => if word.isEmpty then .error .invalidValue else .ok (.path word)
  | text => .ok (.text word)
  | format =>
    match word with
    | "pretty" => .ok (.format .pretty)
    | "json" => .ok (.format .json)
    | _ => .error .invalidValue
  | count =>
    match (signedNatural? word.toList).filter (· < UInt32.size) with
    | some n => .ok (.count n)
    | none => .error .valueValidation

/-! ### Options -/

/-- What an option does. -/
inductive OptionKind where
  | flag
  | help
  | version
  | value (kind : ValueKind)
deriving DecidableEq, Repr

/-- An option. -/
structure OptionSpec where
  name : String
  letter : Option Char
  kind : OptionKind
deriving DecidableEq, Repr

/-- What a command accepts. -/
structure CommandSpec where
  options : List OptionSpec
  /-- The name of its one argument that is no option, if it has one. -/
  argument : Option String
  /-- Why a further word is refused, given whether it stands behind two dashes. -/
  refusal : Bool → String → UsageError

/-! ### Reading -/

/-- An argument whose value has been read but not looked at, or is still to come. -/
structure Pending where
  name : String
  kind : ValueKind
  word : Option String

/-- The state between two words. -/
structure Reader where
  /-- The arguments so far, the last one first. -/
  arguments : List (String × ArgumentValue) := []
  pending : Option Pending := none
  /-- Is the next word the value of the pending option? -/
  isAwaiting : Bool := false
  /-- Did two dashes occur? -/
  isTrailing : Bool := false
  /-- Did the argument occur that is no option? -/
  hasArgument : Bool := false

namespace Reader

/-- Was an argument given already? -/
def has (r : Reader) (name : String) : Bool :=
  (r.arguments.lookup name).isSome

/-- One more argument, which must not be given twice. -/
def add (r : Reader) (name : String) (value : Except UsageError ArgumentValue) :
    Except UsageError Reader :=
  if r.has name then .error .repeatedArgument
  else
    match value with
    | .error e => .error e
    | .ok v => .ok { r with arguments := (name, v) :: r.arguments }

/-- Look at the value of the pending argument. It must have one by now. -/
def settle (r : Reader) : Except UsageError Reader :=
  match r.pending with
  | none => .ok r
  | some pending =>
    match pending.word with
    | none => .error .invalidValue
    | some word =>
      { r with pending := none, isAwaiting := false }.add pending.name (pending.kind.read word)

/-- An option without a value behind it. -/
def useOption (r : Reader) (spec : OptionSpec) : Except UsageError Reader := do
  let r ← r.settle
  match spec.kind with
  | .flag => r.add spec.name (.ok .given)
  | .help => .error .help
  | .version => .error .version
  | .value kind => .ok { r with pending := some ⟨spec.name, kind, none⟩, isAwaiting := true }

/-- An option with a value attached to it. -/
def useAttached (r : Reader) (name : String) (kind : ValueKind) (word : String) :
    Except UsageError Reader := do
  let r ← r.settle
  r.add name (kind.read word)

/-- A long option, behind its dashes. -/
def long (spec : CommandSpec) (r : Reader) (word : String) : Except UsageError Reader :=
  let name := (word.toList.takeWhile (· != '='))
  let attached := (word.toList.dropWhile (· != '=')).tail?.map String.ofList
  match spec.options.find? (·.name == String.ofList name) with
  | none => .error .unknownArgument
  | some option =>
    match option.kind, attached with
    | .value kind, some value => r.useAttached option.name kind value
    | _, some _ => .error .unexpectedValue
    | _, none => r.useOption option

/-- Joined letters, behind their dash. What follows the letter of an option with a value is
the value. -/
def letters (spec : CommandSpec) (r : Reader) : List Char → Except UsageError Reader
  | [] => .ok r
  | letter :: rest =>
    match spec.options.find? (·.letter == some letter) with
    | none => .error .unknownArgument
    | some option =>
      match option.kind, rest with
      | .value kind, '=' :: value => r.useAttached option.name kind (String.ofList value)
      | .value kind, c :: value => r.useAttached option.name kind (String.ofList (c :: value))
      | _, rest => do
        let r ← r.useOption option
        letters spec r rest

/-- A word that is no option. -/
def plain (spec : CommandSpec) (r : Reader) (word : String) : Except UsageError Reader :=
  match spec.argument with
  | some name =>
    if r.hasArgument then .error (spec.refusal r.isTrailing word)
    else do
      let r ← r.settle
      .ok { r with pending := some ⟨name, .path, some word⟩, hasArgument := true }
  | none => .error (spec.refusal r.isTrailing word)

/-- The next word. -/
def step (spec : CommandSpec) (r : Reader) (word : String) : Except UsageError Reader :=
  if r.isTrailing then plain spec r word
  else
    match word.toList with
    | ['-', '-'] => .ok { r with isTrailing := true }
    | '-' :: '-' :: name => long spec r (String.ofList name)
    | '-' :: c :: rest => letters spec r (c :: rest)
    | _ =>
      match r.isAwaiting, r.pending with
      | true, some pending =>
        .ok { r with pending := some { pending with word := some word }, isAwaiting := false }
      | _, _ => plain spec r word

end Reader

/-- Arguments by their names. -/
abbrev Arguments := List (String × ArgumentValue)

/-- The arguments in the words of a command. The argument that is no option must be
given. -/
def CommandSpec.read (spec : CommandSpec) (words : List String) :
    Except UsageError Arguments := do
  let r ← words.foldlM (Reader.step spec) {}
  let r ← r.settle
  if spec.argument.any fun name => !r.has name then .error .missingArgument
  else .ok r.arguments

namespace Arguments

/-- Was a flag given? -/
def flag (arguments : Arguments) (name : String) : Bool :=
  (arguments.lookup name).isSome

/-- The path given under a name. -/
def path? (arguments : Arguments) (name : String) : Option String :=
  match arguments.lookup name with
  | some (.path path) => some path
  | _ => none

/-- The text given under a name. -/
def text? (arguments : Arguments) (name : String) : Option String :=
  match arguments.lookup name with
  | some (.text text) => some text
  | _ => none

/-- The number given under a name. -/
def count? (arguments : Arguments) (name : String) : Option Nat :=
  match arguments.lookup name with
  | some (.count n) => some n
  | _ => none

/-- The format given under a name; results are written for people if there is none. -/
def format (arguments : Arguments) (name : String) : OutputFormat :=
  match arguments.lookup name with
  | some (.format format) => format
  | _ => .pretty

end Arguments

end PyStyle
