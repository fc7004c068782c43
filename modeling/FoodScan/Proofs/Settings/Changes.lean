import FoodScan.CommandLine
import FoodScan.Settings.Change
import Mathlib

/-!
# Settings after many changes

Changes made one after the other come to this, field by field: the last one that gives a value
decides (`latest`, `latest_cons`). How settings and the options of a command are put together is the
other half: `apply_config`, `apply_apply`.
-/

namespace FoodScan.Settings

variable {α : Type} {given : Change → Option α} {change : Change} {changes : List Change}

-- ---------------------------------------------------------------------------
-- Changes
-- ---------------------------------------------------------------------------

/-- The schema path that a change gives, if it gives one: to clear it is to give none. -/
def SchemaChange.path? : SchemaChange → Option (Option String)
  | .keep => none
  | .set path => some (some path)
  | .clear => some none

/-- A change that changes nothing keeps each of the three settings. -/
theorem isChange_eq_false_iff : change.isChange = false ↔ change = ⟨.keep, none, none⟩ := by
  obtain ⟨schema, recursive, color⟩ := change
  cases schema <;> cases recursive <;> cases color <;> simp [Change.isChange]

theorem changed_of_isChange_eq_false (s : Settings) (h : change.isChange = false) :
    s.changed change = s := by
  rw [isChange_eq_false_iff.mp h]
  rfl

/-- What the last of some changes to give a value gives, or what there was without any. -/
def lastGiven (given : Change → Option α) (changes : List Change) (initial : α) : α :=
  (changes.filterMap given).getLastD initial

/-- A change that gives a value replaces what was before. -/
theorem lastGiven_cons (initial : α) :
    lastGiven given (change :: changes) initial =
      lastGiven given changes ((given change).getD initial) := by
  rw [lastGiven, List.filterMap_cons]
  cases given change with
  | none => rfl
  | some a => exact List.getLastD_cons

/-- Settings after changes. Each is what the last change that gives it gives. -/
def latest (s : Settings) (changes : List Change) : Settings where
  schemaPath := lastGiven (fun change => change.schema.path?) changes s.schemaPath
  recursive := lastGiven Change.recursive changes s.recursive
  color := lastGiven Change.color changes s.color

/-- **One change more** in front. -/
theorem latest_cons (s : Settings) (change : Change) (changes : List Change) :
    s.latest (change :: changes) = (s.changed change).latest changes := by
  have hPath : (s.changed change).schemaPath = change.schema.path?.getD s.schemaPath := by
    rw [changed]
    cases change.schema <;> rfl
  rw [latest, lastGiven_cons, lastGiven_cons, lastGiven_cons, latest, hPath]
  rfl

-- ---------------------------------------------------------------------------
-- Settings and options
-- ---------------------------------------------------------------------------

/-- The configuration of source options with settings: the options' own schema comes before that of
the settings, the bundled one is the last resort, and subdirectories count if either says so. -/
def configOf (s : Settings) (source : SourceOptions) : Config where
  directory := source.directory
  format := source.format
  schema := match source.schema, s.schemaPath with
    | some own, _ => .file own
    | none, some kept => .file kept
    | none, none => .bundled
  recursive := source.recursive || s.recursive

/-- Applying settings to the configuration of the options gives the configuration of both. -/
theorem apply_config (s : Settings) (source : SourceOptions) :
    s.apply source.config = s.configOf source := by
  rw [apply, SourceOptions.config, configOf]
  cases source.schema <;> cases s.schemaPath <;> rfl

/-- Once settings are applied, there is nothing left for them to fill in. -/
theorem apply_apply (s : Settings) (config : Config) :
    s.apply (s.apply config) = s.apply config := by
  rw [apply, apply]
  cases config.schema <;> cases s.schemaPath <;> cases config.recursive <;>
    cases s.recursive <;> rfl

end FoodScan.Settings
