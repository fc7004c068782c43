import FoodScan.Discovery
import FoodScan.Query.Evaluation
import FoodScan.Record.Flatten
import FoodScan.Schema.Bundled
import FoodScan.Schema.Reading
import FoodScan.Toml.Reader

/-!
# Loading records

A metadata file is read as TOML, checked against the schema and flattened into a record;
the first of these steps that fails gives the error. Records are loaded all or none: the
schema comes first, then the directory, then every file in path order. A load may show how
far it has come.
-/

namespace FoodScan

/-! ## Schemas -/

/-- Everything a document does wrong, as an error about its file. -/
def Schema.validate (schema : Schema) (document : Json) (path : String) :
    Except LoadError Unit :=
  match schema.violations document with
  | [] => .ok ()
  | violations => .error (.schemaViolation path (violations.map Violation.message))

/-- The schema of a source. -/
def loadSchema (tree : FileTree) (workingDirectory : List String) :
    SchemaSource → Except LoadError Schema
  | .bundled => .ok Schema.bundled
  | .file path =>
    if !tree.hasFile workingDirectory path then .error (.schemaNotFound path)
    else
      match tree.readText workingDirectory path with
      | .error fault => .error (.file path fault)
      | .ok text => (Schema.parse text).mapError .invalidSchema

/-! ## Files -/

/-- The document of a text in a format. -/
def MetadataFormat.document (format : MetadataFormat) (text path : String) :
    Except LoadError Json :=
  match format with
  | .toml =>
    match Toml.parse text with
    | some table => .ok table.toJson
    | none => .error (.malformed path .syntaxError)

/-- The document of a metadata file. -/
def readDocument (tree : FileTree) (workingDirectory : List String) (format : MetadataFormat)
    (path : String) : Except LoadError Json :=
  match tree.readText workingDirectory path with
  | .error fault => .error (.file path fault)
  | .ok text => format.document text path

/-- The record of a metadata file. -/
def loadFile (tree : FileTree) (workingDirectory : List String) (schema : Schema)
    (format : MetadataFormat) (path : String) : Except LoadError Record := do
  let document ← readDocument tree workingDirectory format path
  schema.validate document path
  flatten document path

/-! ## Configurations -/

/-- A display of how far a load has come. -/
structure Progress where
  total : Nat
  position : Nat
  message : String
deriving DecidableEq, Repr

/-- What the display shows at the end of a load: it is cleared if a file has failed. -/
def Progress.finished? (total : Nat) : Except LoadError (List Record) → Option Progress
  | .ok records =>
    some ⟨total, total, "Loaded " ++ toString records.length ++ " records"⟩
  | .error _ => none

/-- The records of a configuration, in path order, and what is left of the display of the load.
There is no display if the load is to be silent, and none before it is known which files there
are. -/
def loadRecordsShowing (tree : FileTree) (workingDirectory : List String) (config : Config)
    (silent : Bool) : Except LoadError (List Record) × Option Progress :=
  match loadSchema tree workingDirectory config.schema with
  | .error e => (.error e, none)
  | .ok schema =>
    match discover tree workingDirectory config with
    | .error e => (.error e, none)
    | .ok paths =>
      let records := paths.mapM (loadFile tree workingDirectory schema config.format)
      (records, if silent then none else Progress.finished? paths.length records)

/-- The records of a configuration, in path order. -/
def loadRecords (tree : FileTree) (workingDirectory : List String) (config : Config) :
    Except LoadError (List Record) :=
  (loadRecordsShowing tree workingDirectory config true).1

/-- The answer of a query to the records of a configuration. -/
def filterRecords (tree : FileTree) (workingDirectory : List String) (config : Config)
    (query : Query) : Except LoadError Outcome := do
  return query.collect (← loadRecords tree workingDirectory config)

end FoodScan
