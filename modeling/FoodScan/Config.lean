/-!
# Configuration

What to load: the directory of the metadata files, their format, where their schema
comes from, and whether subdirectories count.
-/

namespace FoodScan

/-- The formats of metadata files. -/
inductive MetadataFormat where
  | toml
deriving DecidableEq, Repr

namespace MetadataFormat

/-- The name of a format, which is also the extension of its files. -/
def extension : MetadataFormat → String
  | .toml => "toml"

/-- The format of a file extension, in letters of either case. -/
def ofExtension? (ext : String) : Option MetadataFormat :=
  if ext.toLower = "toml" then some .toml else none

/-- The format of a name. -/
def ofName? (name : String) : Option MetadataFormat :=
  if name = "toml" then some .toml else none

end MetadataFormat

/-- Where the schema comes from. -/
inductive SchemaSource where
  | bundled
  | file (path : String)
deriving DecidableEq, Repr

/-- What to load. -/
structure Config where
  directory : String
  format : MetadataFormat := .toml
  schema : SchemaSource := .bundled
  /-- Whether to descend into subdirectories. -/
  recursive : Bool := false
deriving DecidableEq, Repr

end FoodScan
