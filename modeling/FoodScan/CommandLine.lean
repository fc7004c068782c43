import FoodScan.Query
import FoodScan.Settings.Change

/-!
# The command line

A command is given by its name, its options, and options of the program before or after
the name. `CommandLine.parse` refuses what is misspelt, misplaced, given twice, in
conflict or lacking, without saying how it is wrong: every refusal ends the program
alike.

Arguments are texts here. The system takes others too, as paths; where such a path is to be
kept in the settings, that is a command of its own, `Command.settingsNotText`.
-/

namespace FoodScan

/-- Where the records of a command come from. -/
structure SourceOptions where
  directory : String
  schema : Option String
  recursive : Bool
  format : MetadataFormat
deriving DecidableEq, Repr

/-- The configuration of source options, before settings. -/
def SourceOptions.config (s : SourceOptions) : Config :=
  { directory := s.directory
    format := s.format
    schema := match s.schema with
      | some path => .file path
      | none => .bundled
    recursive := s.recursive }

/-- Where the text of a query comes from. -/
inductive QueryText where
  | given (text : String)
  | file (path : String)
deriving DecidableEq, Repr

/-- A command with its options. -/
inductive Command where
  /-- Prints every record, as lines of JSON or for readers. -/
  | showRecords (source : SourceOptions) (json : Bool)
  /-- Prints the identifiers of the records that match a query. -/
  | query (source : SourceOptions) (text : QueryText) (mode : Mode) (json : Bool)
  /-- Checks that every metadata file loads. -/
  | validate (source : SourceOptions)
  /-- Changes and prints the settings. -/
  | settings (change : Settings.Change)
  /-- Changes the settings, among them the schema path, and this to one that is not text. The system
  takes such a path, but no settings file can hold it. -/
  | settingsNotText
deriving DecidableEq, Repr

/-- A command and the options of the program. -/
structure Invocation where
  /-- How many times more logging was asked for. -/
  verbosity : Nat
  noColor : Bool
  command : Command
deriving DecidableEq, Repr

namespace CommandLine

/-- What arguments come to when they are no command. -/
inductive Refusal where
  | usage
  | help
deriving DecidableEq, Repr

/-! ## Options -/

/-- How often an option may be given, and whether it has a value. -/
inductive Arity where
  | flag
  | counted
  | valued
deriving DecidableEq, Repr

/-- An option: its long name, its letter if it has one, and its arity. -/
structure OptionSpec where
  name : String
  letter : Option Char
  arity : Arity
deriving DecidableEq, Repr

/-- The options of the program, allowed before and after the name of a command. -/
def programOptions : List OptionSpec := [
  ⟨"verbose", some 'v', .counted⟩,
  ⟨"no-color", none, .flag⟩,
  ⟨"help", some 'h', .flag⟩]

/-- The options of the commands that load records. -/
def sourceOptions : List OptionSpec := [
  ⟨"directory", some 'd', .valued⟩,
  ⟨"schema", some 's', .valued⟩,
  ⟨"recursive", some 'r', .flag⟩,
  ⟨"metadata-ext", some 'm', .valued⟩]

/-- The options of each command. -/
def commandOptions : String → Option (List OptionSpec)
  | "show" => some (sourceOptions ++ [⟨"json", none, .flag⟩])
  | "query" => some (sourceOptions ++ [
      ⟨"query", some 'q', .valued⟩,
      ⟨"query-file", some 'f', .valued⟩,
      ⟨"and", none, .flag⟩,
      ⟨"or", none, .flag⟩,
      ⟨"mode", none, .valued⟩,
      ⟨"json", none, .flag⟩])
  | "validate" => some sourceOptions
  | "settings" => some [
      ⟨"schema", none, .valued⟩,
      ⟨"clear-schema", none, .flag⟩,
      ⟨"recursive", none, .valued⟩,
      ⟨"color", none, .valued⟩]
  | _ => none

/-- An option that was given, with its value if it has one. -/
structure Occurrence where
  name : String
  value : Option String
deriving DecidableEq, Repr

/-! ## Splitting arguments -/

/-- Whether an argument can be the value of the option before it: it does not look like an
option, a lone dash excepted. -/
def canBeValue (arg : String) : Bool :=
  match arg.toList with
  | '-' :: _ :: _ => false
  | _ => true

/-- An option by its long name, its value attached or in the arguments that follow: what was
given, and the arguments that are left. -/
def longOption (specs : List OptionSpec) (name : String) (attached : Option String)
    (rest : List String) : Except Refusal (Occurrence × List String) :=
  match specs.find? fun s => s.name == name with
  | none => .error .usage
  | some spec =>
    match spec.arity, attached, rest with
    | .valued, some value, rest => .ok (⟨spec.name, some value⟩, rest)
    | .valued, none, value :: rest =>
      if canBeValue value then .ok (⟨spec.name, some value⟩, rest) else .error .usage
    | .valued, none, [] => .error .usage
    | _, some _, _ => .error .usage
    | _, none, rest =>
      if spec.name = "help" then .error .help else .ok (⟨spec.name, none⟩, rest)

/-- Options by their letters, one after the other; the first with a value takes the rest of the
letters, less an equals sign, or the next argument. -/
def letterOptions (specs : List OptionSpec) :
    List Char → List String → Except Refusal (List Occurrence × List String)
  | [], rest => .ok ([], rest)
  | letter :: letters, rest =>
    match specs.find? fun s => s.letter == some letter with
    | none => .error .usage
    | some spec =>
      match spec.arity, letters, rest with
      | .valued, '=' :: value, rest =>
        .ok ([⟨spec.name, some (String.ofList value)⟩], rest)
      | .valued, c :: value, rest =>
        .ok ([⟨spec.name, some (String.ofList (c :: value))⟩], rest)
      | .valued, [], value :: rest =>
        if canBeValue value then .ok ([⟨spec.name, some value⟩], rest) else .error .usage
      | .valued, [], [] => .error .usage
      | _, letters, rest =>
        if spec.name = "help" then .error .help
        else do
          let (given, rest) ← letterOptions specs letters rest
          return (⟨spec.name, none⟩ :: given, rest)

/-- The name and the attached value of a long option. -/
def splitLong (body : List Char) : String × Option String :=
  let name := body.takeWhile (· != '=')
  match body.drop name.length with
  | _ :: value => (String.ofList name, some (String.ofList value))
  | [] => (String.ofList name, none)

/-- Reads one option: what was given, and the arguments that are left; nothing at an argument
that is no option. -/
def option? (specs : List OptionSpec) (arg : String) (rest : List String) :
    Option (Except Refusal (List Occurrence × List String)) :=
  match arg.toList with
  | '-' :: '-' :: body =>
    let (name, attached) := splitLong body
    some ((longOption specs name attached rest).map fun (o, rest) => ([o], rest))
  | '-' :: letter :: letters => some (letterOptions specs (letter :: letters) rest)
  | _ => none

/-- Reads the options of a command, up to the end. No other argument is allowed, but `--` may
stand before the end. -/
def optionsUpTo (specs : List OptionSpec) : Nat → List String → Except Refusal (List Occurrence)
  | _, [] => .ok []
  | 0, _ => .error .usage
  | bound + 1, arg :: rest =>
    if arg = "--" then if rest.isEmpty then .ok [] else .error .usage
    else
      match option? specs arg rest with
      | none => .error .usage
      | some outcome => do
        let (given, rest) ← outcome
        return given ++ (← optionsUpTo specs bound rest)

/-- Reads the options of the program up to the name of a command: the options, the name, and the
arguments after it. -/
def beforeCommand :
    Nat → List String → Except Refusal (List Occurrence × String × List String)
  | _, [] => .error .usage
  | 0, _ => .error .usage
  | bound + 1, arg :: rest =>
    if arg = "--" then .error .usage
    else
      match option? programOptions arg rest with
      | none => if arg = "help" then .error .help else .ok ([], arg, rest)
      | some outcome => do
        let (given, rest) ← outcome
        let (more, name, rest) ← beforeCommand bound rest
        return (given ++ more, name, rest)

/-! ## Meaning -/

/-- How often an option was given. -/
def count (given : List Occurrence) (name : String) : Nat :=
  (given.filter fun o => o.name == name).length

def isGiven (given : List Occurrence) (name : String) : Bool := count given name != 0

/-- The value of an option. -/
def value? (given : List Occurrence) (name : String) : Option String :=
  (given.find? fun o => o.name == name).bind (·.value)

/-- Only counted options may be given twice. -/
def noneTwice (specs : List OptionSpec) (given : List Occurrence) : Bool :=
  specs.all fun s => s.arity == .counted || decide (count given s.name ≤ 1)

/-- Refuses unless a condition holds. -/
def require (ok : Bool) : Except Refusal Unit := if ok then .ok () else .error .usage

/-- The path of an option; it may not be empty. -/
def path? (given : List Occurrence) (name : String) : Except Refusal (Option String) :=
  match value? given name with
  | some "" => .error .usage
  | path => .ok path

/-- The truth value of an option. -/
def truth? (given : List Occurrence) (name : String) : Except Refusal (Option Bool) :=
  match value? given name with
  | none => .ok none
  | some "true" => .ok (some true)
  | some "false" => .ok (some false)
  | some _ => .error .usage

/-- The format of an extension, points before it dropped. -/
def format (given : List Occurrence) : Except Refusal MetadataFormat :=
  match value? given "metadata-ext" with
  | none => .ok .toml
  | some ext =>
    match MetadataFormat.ofExtension? (String.ofList (ext.toList.dropWhile (· == '.'))) with
    | some format => .ok format
    | none => .error .usage

def source (given : List Occurrence) : Except Refusal SourceOptions := do
  return {
    directory := (← path? given "directory").getD "."
    schema := ← path? given "schema"
    recursive := isGiven given "recursive"
    format := ← format given }

/-- The text of a query: exactly one of the two options for it. -/
def queryText (given : List Occurrence) : Except Refusal QueryText := do
  match value? given "query", ← path? given "query-file" with
  | some text, none => return .given text
  | none, some path => return .file path
  | _, _ => .error .usage

/-- The mode of a query: at most one of the three options for it, `and` without any. -/
def mode (given : List Occurrence) : Except Refusal Mode := do
  let isAnd := isGiven given "and"
  let isOr := isGiven given "or"
  match value? given "mode" with
  | some name =>
    require (!isAnd && !isOr)
    (Mode.parse name).mapError fun _ => .usage
  | none =>
    require (!(isAnd && isOr))
    return if isOr then .or else .and

/-- The change of the schema path: set or cleared, not both. -/
def schemaChange (given : List Occurrence) : Except Refusal Settings.SchemaChange := do
  match ← path? given "schema", isGiven given "clear-schema" with
  | some path, false => return .set path
  | none, true => return .clear
  | none, false => return .keep
  | some _, true => .error .usage

/-- The command of a name and its options. -/
def command (name : String) (given : List Occurrence) : Except Refusal Command := do
  match name with
  | "show" => return .showRecords (← source given) (isGiven given "json")
  | "query" =>
    return .query (← source given) (← queryText given) (← mode given) (isGiven given "json")
  | "validate" => return .validate (← source given)
  | "settings" =>
    return .settings {
      schema := ← schemaChange given
      recursive := ← truth? given "recursive"
      color := ← truth? given "color" }
  | _ => .error .usage

/-- Reads the arguments of the program. Asking for more logging counts where it was done last,
before or after the name of the command. -/
def parse (args : List String) : Except Refusal Invocation := do
  let (before, name, rest) ← beforeCommand (args.length + 1) args
  match commandOptions name with
  | none => .error .usage
  | some own =>
    -- the options of the program count on either side of the name
    let specs := programOptions ++ own
    let after ← optionsUpTo specs (rest.length + 1) rest
    require (noneTwice programOptions before && noneTwice specs after)
    let command ← command name after
    return {
      verbosity := if isGiven after "verbose" then count after "verbose"
        else count before "verbose"
      noColor := isGiven before "no-color" || isGiven after "no-color"
      command }

end CommandLine

end FoodScan
