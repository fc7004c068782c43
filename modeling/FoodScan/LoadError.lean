import FoodScan.FileFault
import FoodScan.Json
import FoodScan.Json.Fault

/-!
# Errors of loading records

Each error is the cause with what it concerns; `LoadError.message` gives the wording.
-/

namespace FoodScan

/-- Why a value has no row. -/
inductive Unsupported where
  /-- The value is neither a scalar nor a list. -/
  | found (kind : Json.Kind)
  /-- A list holds something that is not a scalar. -/
  | listContains (kind : Json.Kind)
  /-- A list in a list of lists holds something that is not a scalar. -/
  | nestedListContains (kind : Json.Kind)
deriving DecidableEq, Repr

def Unsupported.message : Unsupported → String
  | .found kind => "found " ++ kind.description
  | .listContains kind => "list contains " ++ kind.description
  | .nestedListContains kind => "nested list contains " ++ kind.description

/-- Why a metadata file has no document, or a document that is no table. -/
inductive Malformed where
  | syntaxError
  | notTable (kind : Json.Kind)
deriving DecidableEq, Repr

def Malformed.message : Malformed → String
  | .syntaxError => "invalid TOML"
  | .notTable kind => "expected a table at the top level, got " ++ kind.description

/-- Why a schema is unusable: it is not JSON, or not a schema. -/
inductive SchemaFault where
  | unreadable (error : Json.ReadError)
  | illFormed
deriving DecidableEq, Repr

def SchemaFault.message : SchemaFault → String
  | .unreadable error => error.message
  | .illFormed => "not a valid schema"

/-- Why records could not be loaded. -/
inductive LoadError where
  | file (path : String) (fault : FileFault)
  | directoryNotFound (path : String)
  /-- The walk over a directory comes to one below it that cannot be opened. -/
  | walk (directory path : String) (fault : FileFault)
  | malformed (path : String) (why : Malformed)
  | schemaNotFound (path : String)
  | invalidSchema (fault : SchemaFault)
  | schemaViolation (path : String) (violations : List String)
  | missingIdentifier (path : String)
  | unsupportedValue (path field : String) (why : Unsupported)
deriving DecidableEq, Repr

/-- The wording of an error. -/
def LoadError.message : LoadError → String
  | .file path fault => "IO error on " ++ path ++ ": " ++ fault.message
  | .directoryNotFound path => "Data directory not found: " ++ path
  | .walk directory path fault =>
    "Failed to walk " ++ directory ++ ": " ++ path ++ ": IO error for operation on " ++ path ++
      ": " ++ fault.message
  | .malformed path why => "Malformed metadata file " ++ path ++ ": " ++ why.message
  | .schemaNotFound path => "Schema file not found: " ++ path
  | .invalidSchema fault => "Invalid schema: " ++ fault.message
  | .schemaViolation path violations =>
    path ++ " does not satisfy the schema: " ++ "; ".intercalate violations
  | .missingIdentifier path => path ++ " has no integer `gid`"
  | .unsupportedValue path field why =>
    "Field `" ++ field ++ "` in " ++ path ++ " cannot be represented as a row: " ++ why.message

end FoodScan
