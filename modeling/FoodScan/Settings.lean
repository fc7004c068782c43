import FoodScan.Config
import FoodScan.FileTree
import FoodScan.Json.Typed
import FoodScan.Json.Skip

/-!
# Settings

Settings are kept in a JSON file between runs: a schema path, whether to descend into
subdirectories, and whether to print in color. Any of them may be missing and unknown
ones are passed over, but one given twice or of another type makes the file unusable.

* `Settings.decode` reads a file's text, `Settings.render` writes it.
* `Settings.apply` fills in what a configuration leaves open.
-/

namespace FoodScan

/-- What is kept between runs. -/
structure Settings where
  schemaPath : Option String := none
  recursive : Bool := false
  color : Bool := true
deriving DecidableEq, Repr

namespace Settings

/-- Fills in the schema where a configuration has none of its own; descends if either says so. -/
def apply (s : Settings) (config : Config) : Config :=
  { config with
    schema := match config.schema, s.schemaPath with
      | .bundled, some path => .file path
      | schema, _ => schema
    recursive := config.recursive || s.recursive }

/-! ## Writing -/

/-- The JSON value of the schema path. -/
def schemaPathJson (s : Settings) : Json :=
  match s.schemaPath with
  | some path => .string path
  | none => .null

/-- The text of a settings file, a line for each setting. -/
def render (s : Settings) : String :=
  "\x7b\n  \"schema_path\": " ++ s.schemaPathJson.render ++
    ",\n  \"recursive\": " ++ (Json.bool s.recursive).render ++
    ",\n  \"color\": " ++ (Json.bool s.color).render ++ "\n\x7d"

/-! ## Reading -/

/-- The settings that a file has given so far. -/
structure Given where
  schemaPath : Option (Option String) := none
  recursive : Option Bool := none
  color : Option Bool := none

/-- Missing settings get their defaults. -/
def Given.complete (p : Given) : Settings :=
  { schemaPath := p.schemaPath.getD none
    recursive := p.recursive.getD false
    color := p.color.getD true }

open Json Text

/-- Reads a truth value. -/
def readBool (cs : List Char) : Except Fault (Bool × List Char) :=
  match Reader.skipBlanks cs with
  | [] => .error (.on .endInValue [])
  | 't' :: rest => do return (true, ← Reader.word "rue".toList rest)
  | 'f' :: rest => do return (false, ← Reader.word "alse".toList rest)
  | cs => .error (Reader.invalidType "a boolean" cs)

/-- Reads a path, or null. -/
def readPath (cs : List Char) : Except Fault (Option String × List Char) :=
  match Reader.skipBlanks cs with
  | [] => .error (.on .endInValue [])
  | 'n' :: rest => do return (none, ← Reader.word "ull".toList rest)
  | '"' :: rest => do
    let (path, rest) ← Reader.text rest
    return (some path, rest)
  | cs => .error (Reader.invalidType "path string" cs)

/-- The refusal of a setting that is given again, with its key just read. A closing brace after
the key is still taken. -/
def duplicate (name : String) (rest : List Char) : Fault :=
  match Reader.skipBlanks rest with
  -- the object is closed before the refusal gets its place
  | '\x7d' :: rest => .before (.duplicateField name) rest
  | rest => .before (.duplicateField name) rest

/-- Reads the value of a setting, after its key. -/
def readSetting (p : Given) (key : String) (rest : List Char) :
    Except Fault (Given × List Char) :=
  match key with
  | "schema_path" =>
    if p.schemaPath.isSome then .error (duplicate key rest)
    else do
      let (path, rest) ← readPath (← Reader.colon rest)
      return ({ p with schemaPath := some path }, rest)
  | "recursive" =>
    if p.recursive.isSome then .error (duplicate key rest)
    else do
      let (b, rest) ← readBool (← Reader.colon rest)
      return ({ p with recursive := some b }, rest)
  | "color" =>
    if p.color.isSome then .error (duplicate key rest)
    else do
      let (b, rest) ← readBool (← Reader.colon rest)
      return ({ p with color := some b }, rest)
  | _ => do return (p, ← Reader.skipValue (← Reader.colon rest))

/-- Reads one setting of an object, or the closing brace. The state says whether it is the
first. -/
def settingStep (state : Given × Bool) (cs : List Char) :
    Except Fault (Progress (Given × Bool) Settings) := do
  match ← Reader.nextKey state.2 cs with
  | .inr rest => return .done state.1.complete rest
  | .inl cs =>
    let (key, rest) ← Reader.text cs
    let (p, rest) ← readSetting state.1 key rest
    return .more (p, false) rest

/-- Reads a setting of a list, if the list goes on. -/
def listSetting (read : List Char → Except Fault (α × List Char)) (first : Bool)
    (cs : List Char) : Except Fault (Option α × List Char) := do
  match ← Reader.nextItem first cs with
  | .inr _ => return (none, cs)
  | .inl cs =>
    let (a, rest) ← read cs
    return (some a, rest)

/-- The end of a list of which no more items are asked for. -/
def endOfList (cs : List Char) : Except Fault (List Char) :=
  match Reader.skipBlanks cs with
  | [] => .error (.on .endInList [])
  | ']' :: rest => .ok rest
  | ',' :: rest =>
    match Reader.skipBlanks rest with
    | ']' :: rest => .error (.on .trailingComma (']' :: rest))
    | rest => .error (.on .trailingCharacters rest)
  | cs => .error (.on .trailingCharacters cs)

/-- Reads settings that are given as a list, in their order. -/
def readList (cs : List Char) : Except Fault (Settings × List Char) := do
  let (schemaPath, cs) ← listSetting readPath true cs
  let (recursive, cs) ← listSetting readBool schemaPath.isNone cs
  let (color, cs) ← listSetting readBool recursive.isNone cs
  return (Given.complete { schemaPath, recursive, color }, ← endOfList cs)

/-- Reads settings. -/
def readSettings (cs : List Char) : Except Fault (Settings × List Char) :=
  match Reader.skipBlanks cs with
  | [] => .error (.on .endInValue [])
  | '[' :: rest => readList rest
  | '\x7b' :: rest => scan settingStep (.error (.on .endInObject [])) ({}, true) rest
  | cs => .error (Reader.invalidType "struct Settings" cs)

/-- The settings of a text. -/
def decode (text : String) : Except ReadError Settings := readAll readSettings text

/-! ## The file -/

/-- Why settings could not be loaded. -/
inductive LoadError where
  | unreadable (path : String) (fault : FileFault)
  | malformed (path : String) (error : ReadError)
deriving DecidableEq, Repr

/-- What failed. -/
def LoadError.message : LoadError → String
  | .unreadable path _ => "Failed to read settings file " ++ path
  | .malformed path _ => "Failed to parse settings file " ++ path

/-- Why it failed. -/
def LoadError.cause : LoadError → String
  | .unreadable _ fault => fault.message
  | .malformed _ error => error.message

/-- The settings in a file; the defaults if there is none. -/
def load (tree : FileTree) (workingDirectory : List String) (path : String) :
    Except LoadError Settings :=
  if !tree.hasAny workingDirectory path then .ok {}
  else
    match tree.readText workingDirectory path with
    | .error fault => .error (.unreadable path fault)
    | .ok text => (decode text).mapError (.malformed path)

end Settings

end FoodScan
