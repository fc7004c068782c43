import FoodScan.CommandLine
import FoodScan.Loading
import FoodScan.Query.Reading
import FoodScan.Report
import FoodScan.Text.ControlSequence

/-!
# Runs of the program

A run takes the arguments, an environment and the tree of files, and gives an exit code,
what is printed, and the tree afterwards. A command is an `Action`, which prints and writes
as it goes along; everything that can fail comes before the first output, and only the
command that changes the settings changes a file.
-/

namespace FoodScan

/-- Where a run takes place. -/
structure Environment where
  /-- The names that lead from the root to the working directory. -/
  workingDirectory : List String
  /-- The path of the directory for settings of all programs. It may be any path: parts of it may
  lead up, and it leads on from the working directory if the home directory is given so. -/
  configHome : String

namespace Environment

/-- The directory for settings: the one named for it if that is an absolute path, else the usual
one in the home directory. -/
def configHome? (named home : Option String) : Option String :=
  match named, home with
  | some path, home =>
    if FileTree.isAbsolute path then some path
    else home.map fun dir => FileTree.join dir ".config"
  | none, home => home.map fun dir => FileTree.join dir ".config"

/-- The names of the directory and of the file of the settings. -/
def settingsNames : String × String := ("mdframe", "config.json")

/-- The directory of the settings file. -/
def settingsDirectory (env : Environment) : String :=
  FileTree.join env.configHome settingsNames.1

/-- The path of the settings file. -/
def settingsPath (env : Environment) : String :=
  FileTree.join env.settingsDirectory settingsNames.2

end Environment

/-- Why a run failed: a message and perhaps a cause. -/
structure Failure where
  message : String
  cause : Option String
deriving DecidableEq, Repr

namespace Failure

def ofQuery (e : QueryError) : Failure := ⟨e.message, none⟩

/-- Faults of files are told as the cause. -/
def ofLoad (e : LoadError) : Failure :=
  match e with
  | .file _ fault => ⟨e.message, some fault.message⟩
  | _ => ⟨e.message, none⟩

def ofSettings (e : Settings.LoadError) : Failure := ⟨e.message, some e.cause⟩

/-- The text of a failure. -/
def text (f : Failure) : String :=
  match f.cause with
  | none => "Error: " ++ f.message ++ "\n"
  | some cause => "Error: " ++ f.message ++ "\n\nCaused by:\n    " ++ cause ++ "\n"

end Failure

/-- How far a run has come: what it has printed, and the files as they are now. -/
structure Stage where
  stdout : String := ""
  stderr : String := ""
  tree : FileTree

/-- A finished run. -/
structure Run where
  code : Nat
  stdout : String
  stderr : String
  tree : FileTree

/-- The run of a command: a failure is told on standard error. -/
def Run.ofOutcome : Except Failure Unit × Stage → Run
  | (.ok (), stage) => ⟨0, stage.stdout, stage.stderr, stage.tree⟩
  | (.error failure, stage) => ⟨1, stage.stdout, stage.stderr ++ failure.text, stage.tree⟩

namespace Session

/-! ## Logging -/

/-- Text of several lines, all but the first set in. -/
def indented (text : String) : String :=
  String.ofList (text.toList.flatMap fun c => if c = '\n' then "\n    ".toList else [c])

/-- A message in the log, its first line after level and topic. The log holds no control
sequences; one that does not end in the message takes the end of the line along. -/
def logLine (level topic message : String) : String :=
  Text.ControlSequence.withoutControls
    ("[" ++ level ++ " mdframe::" ++ topic ++ "] " ++ indented message ++ "\n")

/-- The log of a load. From the third degree of verbosity on the program adds lines for debugging:
how many files were discovered, and each record that was loaded. They are left out here. -/
def loadLog (verbosity : Nat) (config : Config) (records : List Record) : String :=
  if verbosity < 2 then ""
  else
    logLine "INFO " "record::loader"
      ("loaded " ++ toString records.length ++ " records from " ++ config.directory)

/-- The fields that some record lacks, ascending. -/
def unknownFields (outcome : Outcome) : List String :=
  (Report.tally (outcome.warnings.map Warning.field)).keys

/-- The log of a query. The lines for debugging are left out here too: one for each field that a
record lacks. -/
def queryLog (verbosity : Nat) (query : Query) (records : List Record) (outcome : Outcome) :
    String :=
  (if verbosity < 1 then ""
    else
      String.join ((unknownFields outcome).map fun field =>
        logLine "WARN " "query::collector" (unknownFieldMessage field))) ++
  (if verbosity < 2 then ""
    else
      logLine "INFO " "query::collector"
        ("query (" ++ query.mode.name ++ " mode, " ++ toString query.terms.length ++
          " fields) matched " ++ toString outcome.ids.length ++ " of " ++
          toString records.length ++ " records"))

/-! ## Actions -/

/-- A part of a run. What it prints and writes before it fails stays printed and written. -/
abbrev Action := ExceptT Failure (StateM Stage)

/-- Prints on standard output. -/
def print (text : String) : Action Unit :=
  modify fun stage => { stage with stdout := stage.stdout ++ text }

/-- Prints on standard error. -/
def printError (text : String) : Action Unit :=
  modify fun stage => { stage with stderr := stage.stderr ++ text }

/-- Goes on with a result, or fails. -/
def orFail (result : Except Failure α) : Action α := liftExcept result

variable (env : Environment)

/-- The records of a configuration, their number logged. A display of the load is for a terminal and
is no part of what is printed. -/
def load (verbosity : Nat) (silent : Bool) (config : Config) : Action (List Record) := do
  let stage ← get
  let (records, _) := loadRecordsShowing stage.tree env.workingDirectory config silent
  let records ← orFail (records.mapError Failure.ofLoad)
  printError (loadLog verbosity config records)
  return records

/-- The text of a query. -/
def queryText : QueryText → Action String
  | .given text => return text
  | .file path => do
    let stage ← get
    orFail ((stage.tree.readText env.workingDirectory path).mapError fun fault =>
      ⟨"Failed to read query file " ++ path, some fault.message⟩)

/-- The settings in the settings file. -/
def loadSettings : Action Settings := do
  let stage ← get
  orFail
    ((Settings.load stage.tree env.workingDirectory env.settingsPath).mapError
      Failure.ofSettings)

/-- Makes the directory of the settings file, with all that is missing on the way. -/
def makeSettingsDirectory : Action Unit := do
  let stage ← get
  let (tree, fault?) := stage.tree.makeDirectories env.workingDirectory env.settingsDirectory
  set { stage with tree }
  match fault? with
  | none => return
  | some fault => throw ⟨fault.message, none⟩

/-- Writes the settings file. A schema path that is not text leaves no text for the file, but this
is found out after the directory was made. -/
def saveSettings (text? : Option String) : Action Unit := do
  makeSettingsDirectory env
  match text? with
  | none =>
    throw ⟨"Failed to serialize settings", some "path contains invalid UTF-8 characters"⟩
  | some text =>
    let stage ← get
    let written := stage.tree.overwriteFile env.workingDirectory env.settingsDirectory
      Environment.settingsNames.2 text.toUTF8
    let tree ← orFail (written.mapError fun fault =>
      ⟨"Failed to write settings file", some fault.message⟩)
    set { stage with tree }

/-! ## Commands -/

/-- Prints every record. -/
def showRecords (verbosity : Nat) (color json : Bool) (config : Config) : Action Unit := do
  let records ← load env verbosity json config
  print (if json then Report.recordLines records else Report.records color records)

/-- Prints what matches a query. The query is read before the records. -/
def answerQuery (verbosity : Nat) (color json : Bool) (config : Config) (text : QueryText)
    (mode : Mode) : Action Unit := do
  let text ← queryText env text
  let query ← orFail ((Query.parse mode text).mapError Failure.ofQuery)
  let records ← load env verbosity true config
  let outcome := query.collect records
  printError (queryLog verbosity query records outcome)
  if json then print ((Report.outcomeJson outcome).render ++ "\n")
  else
    print (Report.ids color outcome)
    printError (Report.warnings color outcome)

/-- Loads every record and prints their number. -/
def validate (verbosity : Nat) (config : Config) : Action Unit := do
  let records ← load env verbosity false config
  print (toString records.length ++ " records in " ++ config.directory ++ " are valid\n")

/-- Changes the settings file, if a change is asked for, and prints the settings. -/
def changeSettings (settings : Settings) (change : Settings.Change) : Action Unit := do
  let settings := settings.changed change
  if change.isChange then saveSettings env (some settings.render)
  print ("Settings file: " ++ env.settingsPath ++ "\n" ++ settings.render ++ "\n")

/-- Carries a command out. The settings come first, whatever the command. -/
def perform (call : Invocation) : Action Unit := do
  let settings ← loadSettings env
  let color := settings.color && !call.noColor
  match call.command with
  | .showRecords source json =>
    showRecords env call.verbosity color json (settings.apply source.config)
  | .query source text mode json =>
    answerQuery env call.verbosity color json (settings.apply source.config) text mode
  | .validate source => validate env call.verbosity (settings.apply source.config)
  | .settings change => changeSettings env settings change
  | .settingsNotText => saveSettings env none

/-- Carries a command out on some files. -/
def carryOut (tree : FileTree) (call : Invocation) : Run :=
  .ofOutcome ((perform env call).run.run { tree })

/-- How the program is used. -/
def usage : String :=
  "Usage: mdframe [OPTIONS] <show|query|validate|settings> [OPTIONS]\n"

/-- Runs the program on some files. -/
def run (tree : FileTree) (args : List String) : Run :=
  match CommandLine.parse args with
  | .error .usage => ⟨2, "", "error: invalid arguments\n\n" ++ usage, tree⟩
  | .error .help => ⟨0, usage, "", tree⟩
  | .ok call => carryOut env tree call

end Session

end FoodScan
