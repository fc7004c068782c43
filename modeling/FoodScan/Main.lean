import FoodScan.Session

/-!
# The program

Takes a picture of the files that the arguments concern, runs the program on it, prints
what the run prints, makes the directories that the run made and writes the settings file
if the run changed it. Everything else is decided by `Session.run`.
-/

namespace FoodScan.Program

/-- The absolute path of names. -/
def pathOf (names : List String) : String := "/" ++ "/".intercalate names

/-- Adds a node to a picture, unless there is one already. -/
def graft (tree : FileTree) (names : List String) (node : FileTree) : FileTree :=
  match tree.at? names, names.getLast? with
  | none, some name =>
    match FileTree.changeDirectory (FileTree.putEntry name node) names.dropLast tree with
    | .ok tree => tree
    | .error _ => tree
  | _, _ => tree

/-- How much of a directory belongs to the picture. -/
inductive Depth where
  | nothing
  | entries
  | everything
deriving DecidableEq

/-- Adds the entries of a directory. Of these, only metadata files have content that counts. -/
partial def entriesOf (depth : Depth) (names : List String) (tree : FileTree) : IO FileTree := do
  if depth = .nothing then return tree
  let dir := (← IO.currentDir) / pathOf names
  if !(← dir.isDir) then return tree
  let mut tree := tree
  for entry in ← dir.readDir do
    let place := names ++ [entry.fileName]
    match (← entry.path.metadata).type with
    | .dir =>
      tree := graft tree place (.directory [])
      if depth = .everything then tree ← entriesOf depth place tree
    | .file =>
      let content ←
        if isMetadataName .toml entry.fileName then IO.FS.readBinFile entry.path
        else pure ByteArray.empty
      tree := graft tree place (.file content)
    | _ => pure ()
  return tree

/-- Adds what is on the way of a path from a directory, and what it leads to. A way goes on where
something is missing: its later parts may lead up again. -/
partial def survey (depth : Depth) (here : List String) (parts : List String) (tree : FileTree) :
    IO FileTree := do
  match parts with
  | [] => entriesOf depth here tree
  | part :: rest =>
    if part = "" ∨ part = "." then survey depth here rest tree
    else if part = ".." then survey depth here.dropLast rest tree
    else
      let place := here ++ [part]
      let path := (← IO.currentDir) / pathOf place
      if ← path.isDir then survey depth place rest (graft tree place (.directory []))
      else if ← path.pathExists then return graft tree place (.file (← IO.FS.readBinFile path))
      else survey depth place rest tree

/-- Adds what a path concerns. -/
def surveyPath (env : Environment) (depth : Depth) (path : String) (tree : FileTree) :
    IO FileTree :=
  survey depth (if FileTree.isAbsolute path then [] else env.workingDirectory)
    (FileTree.pathParts path) tree

/-- Adds what source options concern, settings applied. -/
def surveySource (env : Environment) (source : SourceOptions) (tree : FileTree) : IO FileTree := do
  let settings :=
    match Settings.load tree env.workingDirectory env.settingsPath with
    | .ok settings => settings
    | .error _ => {}
  let config := settings.apply source.config
  let tree ← match config.schema with
    | .file path => surveyPath env .nothing path tree
    | .bundled => pure tree
  surveyPath env (if config.recursive then .everything else .entries) config.directory tree

/-- The picture of the files that the arguments concern. -/
def picture (env : Environment) (args : List String) : IO FileTree := do
  let tree ← survey .nothing [] env.workingDirectory (.directory [])
  let tree ← surveyPath env .nothing env.settingsPath tree
  match CommandLine.parse args with
  | .error _ => return tree
  | .ok call =>
    match call.command with
    | .showRecords source _ => surveySource env source tree
    | .validate source => surveySource env source tree
    | .query source text _ _ => do
      let tree ← match text with
        | .file path => surveyPath env .nothing path tree
        | .given _ => pure tree
      surveySource env source tree
    | .settings _ => return tree
    | .settingsNotText => return tree

/-- The bytes of the settings file. -/
def settingsContent (env : Environment) (tree : FileTree) : Option ByteArray :=
  match tree.find env.workingDirectory env.settingsPath with
  | .ok (.file content) => some content
  | _ => none

/-- The paths on the way to the settings file that lead somewhere now and did not before, shortest
first. -/
def madeDirectories (env : Environment) (before after : FileTree) : List String :=
  let start := FileTree.origin env.workingDirectory env.settingsDirectory
  let parts := FileTree.components env.settingsDirectory
  let leads (tree : FileTree) (way : List String) : Bool := (tree.walk start way).toOption.isSome
  let ways := (List.range (parts.length + 1)).map parts.take
  let made := ways.filter fun way => !leads before way && leads after way
  made.map fun way => pathOf (start ++ way)

/-- Runs the program on the files of the machine. -/
def run (env : Environment) (args : List String) : IO UInt32 := do
  let before ← picture env args
  let finished := Session.run env before args
  for path in madeDirectories env before finished.tree do
    IO.FS.createDir path
  match settingsContent env finished.tree with
  | some content =>
    if (settingsContent env before).map ByteArray.data ≠ some content.data then
      IO.FS.writeBinFile env.settingsPath content
  | none => pure ()
  (← IO.getStdout).putStr finished.stdout
  (← IO.getStderr).putStr finished.stderr
  return UInt32.ofNat finished.code

end FoodScan.Program

/-- The program. -/
def main (args : List String) : IO UInt32 := do
  let workingDirectory := FoodScan.FileTree.components (← IO.currentDir).toString
  let configHome := FoodScan.Environment.configHome?
    (← IO.getEnv "XDG_CONFIG_HOME") (← IO.getEnv "HOME")
  let run (configHome : String) := FoodScan.Program.run ⟨workingDirectory, configHome⟩ args
  match configHome, FoodScan.CommandLine.parse args with
  | some configHome, _ => run configHome
  | none, .error _ => run "/"
  | none, .ok _ => do
    (← IO.getStderr).putStr "Error: Could not determine config directory\n"
    return 1
