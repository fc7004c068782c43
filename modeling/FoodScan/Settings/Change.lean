import FoodScan.Settings

/-!
# Changes of settings

A change names the settings that it gives a new value and leaves the others as they are.
-/

namespace FoodScan.Settings

/-- A change of the schema path. -/
inductive SchemaChange where
  | keep
  | set (path : String)
  | clear
deriving DecidableEq, Repr

/-- A change of settings. -/
structure Change where
  schema : SchemaChange
  recursive : Option Bool
  color : Option Bool
deriving DecidableEq, Repr

/-- Whether a change names any setting. -/
def Change.isChange (change : Change) : Bool :=
  change.schema != .keep || change.recursive.isSome || change.color.isSome

/-- Settings after a change. -/
def changed (s : Settings) (change : Change) : Settings :=
  { schemaPath := match change.schema with
      | .keep => s.schemaPath
      | .set path => some path
      | .clear => none
    recursive := change.recursive.getD s.recursive
    color := change.color.getD s.color }

end FoodScan.Settings
