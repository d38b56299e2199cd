import PyStyle.Catalog
import PyStyle.Glob
import PyStyle.Suppression

/-!
# Settings

What users can set: two limits, codes and categories to ignore, paths to leave out, and
whether tests are looked at.

- `Settings` — the values, with their defaults;
- `Settings.ignoredCodes` — the ignored codes, with categories spelled out;
- `Settings.exclusions` — the patterns of the paths to leave out;
- `Settings.validate` — the first thing that is wrong with the values.
-/

namespace PyStyle

/-- The values that users can set. -/
structure Settings where
  /-- The highest score a function may have. -/
  maxCognitiveScore : Nat := 12
  /-- The highest average score the functions of a module may have. -/
  maxCognitiveAverage : Nat := 8
  /-- Codes and names of categories. -/
  ignore : List String := []
  /-- Patterns of paths to leave out. -/
  excludedPaths : List String := []
  /-- Are test files looked at? They are if nothing is set. -/
  includeTestFiles : Option Bool := none
deriving DecidableEq, Repr, Inhabited

/-- What can be wrong with settings. -/
inductive SettingsError where
  | scoreTooLow
  | averageTooLow
  | unknownCode (entry : String)
  | unknownEntry (entry : String)
  | badPattern (pattern : String) (cause : GlobError)
deriving DecidableEq, Repr

namespace SettingsError

/-- The error in words. -/
def message : SettingsError → String
  | scoreTooLow => "max_cognitive_score must be at least 1"
  | averageTooLow => "max_cognitive_average must be at least 1"
  | unknownCode entry => "unknown violation code in ignore: " ++ entry
  | unknownEntry entry => "ignore entry is neither a code nor a category: " ++ entry
  | badPattern pattern _ => "invalid excluded_paths pattern " ++ Text.quoted pattern

/-- The error in words, with its cause. -/
def fullMessage (error : SettingsError) : String :=
  match error with
  | badPattern pattern cause =>
    error.message ++ ": error parsing glob '" ++ pattern ++ "': " ++ cause.message
  | _ => error.message

end SettingsError

namespace Settings

/-- Are test files looked at? -/
def includesTests (settings : Settings) : Bool :=
  settings.includeTestFiles.getD true

/-- The codes that one entry ignores: those of a category, or a single one. An entry that
is neither ignores nothing. -/
def codesOfEntry (catalog : Catalog) (entry : String) : List Nat :=
  match Category.ofLabel? entry with
  | some category => (catalog.rulesOf category).map (·.code)
  | none => (parseCode entry).toList

/-- The ignored codes in ascending order. -/
def ignoredCodes (settings : Settings) (catalog : Catalog) : List Nat :=
  codeSet (settings.ignore.flatMap (codesOfEntry catalog))

/-- The patterns of the paths to leave out. -/
def exclusions (settings : Settings) : Except SettingsError Exclusions :=
  match Exclusions.parse settings.excludedPaths with
  | .error (pattern, cause) => .error (.badPattern pattern cause)
  | .ok set => .ok set

/-- Is the entry a category or a code of the catalog? -/
def validateEntry (catalog : Catalog) (entry : String) : Except SettingsError Unit :=
  if (Category.ofLabel? entry).isSome then .ok ()
  else
    match parseCode entry with
    | none => .error (.unknownEntry entry)
    | some code => if (catalog.get? code).isSome then .ok () else .error (.unknownCode entry)

/-- Are all entries categories or codes of the catalog? -/
def validateEntries (catalog : Catalog) : List String → Except SettingsError Unit
  | [] => .ok ()
  | entry :: rest => do
    validateEntry catalog entry
    validateEntries catalog rest

/-- The first thing that is wrong: the limits come first, then the entries in their order,
then the patterns. -/
def validate (settings : Settings) (catalog : Catalog) : Except SettingsError Unit :=
  if settings.maxCognitiveScore == 0 then .error .scoreTooLow
  else if settings.maxCognitiveAverage == 0 then .error .averageTooLow
  else do
    validateEntries catalog settings.ignore
    let _ ← settings.exclusions
    .ok ()

end Settings

end PyStyle
