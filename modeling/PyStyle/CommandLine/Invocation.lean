import PyStyle.CommandLine

/-!
# Invocations

The two commands of the program and what can be said about them.

- `Invocation` — a command with its options;
- `Invocation.ofWords` — the invocation that words stand for.
-/

namespace PyStyle

/-- Options of a lint run. -/
structure LintOptions where
  path : String
  /-- The settings file, if it is named. -/
  config : Option String
  format : OutputFormat
  showSuppressed : Bool
  /-- Limits that win over the settings. -/
  maxCognitiveScore : Option Nat
  maxCognitiveAverage : Option Nat
deriving DecidableEq, Repr

/-- Options of a listing of codes. -/
structure CodesOptions where
  category : Option String
  format : OutputFormat
deriving DecidableEq, Repr

/-- A command. -/
inductive Command where
  | lint (options : LintOptions)
  | codes (options : CodesOptions)
deriving DecidableEq, Repr

/-- A command, and whether it is to tell more about its work. -/
structure Invocation where
  isVerbose : Bool
  command : Command
deriving DecidableEq, Repr

namespace Invocation

/-- The option for more words, which stands before or behind the name of a command. -/
def verboseOption : OptionSpec := ⟨"verbose", some 'v', .flag⟩

/-- The option for help. -/
def helpOption : OptionSpec := ⟨"help", some 'h', .help⟩

/-- The option for the format. -/
def formatOption : OptionSpec := ⟨"format", some 'f', .value .format⟩

/-- What a lint run accepts. -/
def lintSpec : CommandSpec where
  options :=
    [⟨"config", some 'c', .value .path⟩, formatOption,
     ⟨"show-suppressed", none, .flag⟩,
     ⟨"max-cognitive-score", none, .value .count⟩,
     ⟨"max-cognitive-average", none, .value .count⟩,
     verboseOption, helpOption]
  argument := some "path"
  refusal _ _ := .unknownArgument

/-- What a listing of codes accepts. -/
def codesSpec : CommandSpec where
  options := [⟨"category", none, .value .text⟩, formatOption, verboseOption, helpOption]
  argument := none
  refusal _ _ := .unknownArgument

/-- The names of commands: a command of its own gives help. -/
def commandNames : List String :=
  ["lint", "check", "codes", "help"]

/-- What is accepted before the name of a command. -/
def outerSpec : CommandSpec where
  options := [verboseOption, helpOption, ⟨"version", some 'V', .version⟩]
  argument := none
  refusal isTrailing word :=
    if isTrailing && commandNames.contains word then .unknownArgument else .invalidSubcommand

/-- The options of a lint run. -/
def lintOptions (arguments : Arguments) : Except UsageError LintOptions :=
  match arguments.path? "path" with
  | none => .error .missingArgument
  | some path =>
    .ok
      { path
        config := arguments.path? "config"
        format := arguments.format "format"
        showSuppressed := arguments.flag "show-suppressed"
        maxCognitiveScore := arguments.count? "max-cognitive-score"
        maxCognitiveAverage := arguments.count? "max-cognitive-average" }

/-- The help about nothing, or about one command. -/
def helpAbout : List String → UsageError
  | [] => .help
  | [name] => if commandNames.contains name then .help else .invalidSubcommand
  | _ => .invalidSubcommand

/-- The invocation of a named command with the words behind its name. -/
def ofCommand (isVerbose : Bool) (name : String) (words : List String) :
    Except UsageError Invocation :=
  match name with
  | "help" => .error (helpAbout words)
  | "codes" => do
    let arguments ← codesSpec.read words
    .ok { isVerbose := isVerbose || arguments.flag "verbose"
          command := .codes
            { category := arguments.text? "category", format := arguments.format "format" } }
  | _ => do
    let arguments ← lintSpec.read words
    let options ← lintOptions arguments
    .ok { isVerbose := isVerbose || arguments.flag "verbose", command := .lint options }

/-- The invocation that the words from the next one on stand for. -/
def ofWordsFrom (r : Reader) : List String → Except UsageError Invocation
  | [] => .error (if r.arguments.isEmpty then .helpInstead else .missingSubcommand)
  | word :: rest =>
    if !r.isTrailing && commandNames.contains word then
      ofCommand (r.has "verbose") word rest
    else
      match Reader.step outerSpec r word with
      | .error e => .error e
      | .ok next => ofWordsFrom next rest

/-- The invocation that words stand for. -/
def ofWords (words : List String) : Except UsageError Invocation :=
  ofWordsFrom {} words

end Invocation

end PyStyle
