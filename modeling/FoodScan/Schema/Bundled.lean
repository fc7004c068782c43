import FoodScan.Schema

/-!
# The bundled schema

The schema of a metadata file of a food scan, used where no other is configured. It is
of draft 4, so an integer is a number without a fraction part.
-/

namespace FoodScan.Schema.Bundled

/-- Values of one type. -/
def typed (t : TypeName) : Schema := .keywords [.types .four [t]]

/-- A list whose first items are texts. -/
def textsFirst (n : Nat) : Schema :=
  .keywords [.firstItems (List.replicate n (typed .string)), .types .four [.array]]

/-- An object with typed members, some of them required. -/
def table (named : List (String × Schema)) (required : List String) : Schema :=
  .keywords [.properties named, .required required, .types .four [.object]]

/-- What was scanned. -/
def item : Schema :=
  table
    [("description", typed .string), ("food_type", typed .string),
      ("nutrition_subgroup", typed .string)]
    ["nutrition_subgroup", "food_type", "description"]

/-- What was measured. -/
def metrics : Schema :=
  table
    [("ingredients", .keywords [.items (.keywords []), .types .four [.array]]),
      ("unit", typed .string), ("weight", typed .integer)]
    ["weight", "unit"]

/-- The scanned model. -/
def model : Schema :=
  table
    [("merged", typed .boolean), ("nutrition_facts_sources", textsFirst 3),
      ("project_name", typed .string), ("quality", typed .integer),
      ("quality_comments", typed .string), ("rgbd_file_names", textsFirst 1),
      ("texture_sources", textsFirst 4), ("textured", typed .boolean)]
    ["project_name", "rgbd_file_names"]

/-- When the scan was made. -/
def time : Schema :=
  .keywords
    [.properties [("finished", typed .string), ("started", typed .string)],
      .types .four [.object]]

end Bundled

/-- The schema of a metadata file. -/
def bundled : Schema :=
  Bundled.table
    [("gid", Bundled.typed .integer), ("item", Bundled.item), ("metrics", Bundled.metrics),
      ("model", Bundled.model), ("time", Bundled.time), ("uid", Bundled.typed .string)]
    ["gid", "uid", "item", "metrics", "model", "time"]

end FoodScan.Schema
