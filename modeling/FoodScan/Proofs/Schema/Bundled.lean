import FoodScan.Loading
import FoodScan.Proofs.Json.Canonical
import FoodScan.Proofs.Schema.Rules

/-!
# What the bundled schema asks for

`IsMetadata` describes the documents that are meant, table by table. `metadataRules` lists every
single thing that is asked of them. The bundled schema tells of each rule that a document breaks, of
nothing else, and in the order of the rules (`toldBy_bundled`), and the documents that break none
are the ones that are meant (`obeys_metadata`).

`Bundled.document` is the schema as it is written, its members in the order of their keys
(`canonical_document`); it is read as the bundled schema (`ofDocument_bundled`).

Main result: `bundled_accepts_exactly_metadata`.
-/

namespace FoodScan

open Schema (Violation violations)

-- ---------------------------------------------------------------------------
-- The documents that are meant
-- ---------------------------------------------------------------------------

/-- What was scanned. -/
@[mk_iff]
structure IsItem (v : Json) : Prop where
  object : v.IsObject
  nutritionSubgroup : v.Requires "nutrition_subgroup" Json.IsText
  foodType : v.Requires "food_type" Json.IsText
  description : v.Requires "description" Json.IsText

/-- What was measured. -/
@[mk_iff]
structure IsMetrics (v : Json) : Prop where
  object : v.IsObject
  weight : v.Requires "weight" Json.IsInteger
  unit : v.Requires "unit" Json.IsText
  ingredients : v.Permits "ingredients" Json.IsList

/-- The scanned model. -/
@[mk_iff]
structure IsModel (v : Json) : Prop where
  object : v.IsObject
  projectName : v.Requires "project_name" Json.IsText
  rgbdFileNames : v.Requires "rgbd_file_names" (Json.StartsWithTexts 1)
  nutritionFactsSources : v.Permits "nutrition_facts_sources" (Json.StartsWithTexts 3)
  textureSources : v.Permits "texture_sources" (Json.StartsWithTexts 4)
  quality : v.Permits "quality" Json.IsInteger
  qualityComments : v.Permits "quality_comments" Json.IsText
  merged : v.Permits "merged" Json.IsTruthValue
  textured : v.Permits "textured" Json.IsTruthValue

/-- When the scan was made. -/
@[mk_iff]
structure IsTime (v : Json) : Prop where
  object : v.IsObject
  started : v.Permits "started" Json.IsText
  finished : v.Permits "finished" Json.IsText

/-- The document of a metadata file. What is not mentioned is free. -/
@[mk_iff]
structure IsMetadata (v : Json) : Prop where
  object : v.IsObject
  gid : v.Requires "gid" Json.IsInteger
  uid : v.Requires "uid" Json.IsText
  item : v.Requires "item" IsItem
  metrics : v.Requires "metrics" IsMetrics
  model : v.Requires "model" IsModel
  time : v.Requires "time" IsTime

-- ---------------------------------------------------------------------------
-- Rules
-- ---------------------------------------------------------------------------

namespace Schema

def itemRules : List Rule :=
  tableRules
    [("description", typeRules .string), ("food_type", typeRules .string),
      ("nutrition_subgroup", typeRules .string)]
    ["nutrition_subgroup", "food_type", "description"]

def metricsRules : List Rule :=
  tableRules
    [("ingredients", typeRules .array), ("unit", typeRules .string),
      ("weight", typeRules .integer)]
    ["weight", "unit"]

def modelRules : List Rule :=
  tableRules
    [("merged", typeRules .boolean), ("nutrition_facts_sources", textsFirstRules 3),
      ("project_name", typeRules .string), ("quality", typeRules .integer),
      ("quality_comments", typeRules .string), ("rgbd_file_names", textsFirstRules 1),
      ("texture_sources", textsFirstRules 4), ("textured", typeRules .boolean)]
    ["project_name", "rgbd_file_names"]

def timeRules : List Rule :=
  tableRules [("finished", typeRules .string), ("started", typeRules .string)] []

def metadataRules : List Rule :=
  tableRules
    [("gid", typeRules .integer), ("item", itemRules), ("metrics", metricsRules),
      ("model", modelRules), ("time", timeRules), ("uid", typeRules .string)]
    ["gid", "uid", "item", "metrics", "model", "time"]

/-- The schema of an item of the bundled schema is told by its rules. -/
theorem toldBy_item : Bundled.item.ToldBy itemRules :=
  toldBy_table (.cons (toldBy_typed _) (.cons (toldBy_typed _) (.cons (toldBy_typed _) .nil))) _

theorem toldBy_metrics : Bundled.metrics.ToldBy metricsRules := by
  have hIngredients : (Schema.keywords
      [.items (.keywords []), .types .four [.array]]).ToldBy (typeRules .array) :=
    toldBy_keywords (.cons keyword_toldBy_items_free (.cons (keyword_toldBy_types .array) .nil))
  exact toldBy_table (.cons hIngredients (.cons (toldBy_typed _) (.cons (toldBy_typed _) .nil))) _

theorem toldBy_model : Bundled.model.ToldBy modelRules :=
  toldBy_table (.cons (toldBy_typed _) (.cons (toldBy_textsFirst 3) (.cons (toldBy_typed _)
    (.cons (toldBy_typed _) (.cons (toldBy_typed _) (.cons (toldBy_textsFirst 1)
      (.cons (toldBy_textsFirst 4) (.cons (toldBy_typed _) .nil)))))))) _

theorem toldBy_time : Bundled.time.ToldBy timeRules :=
  toldBy_keywords (.cons
    (keyword_toldBy_properties (.cons (toldBy_typed _) (.cons (toldBy_typed _) .nil)))
    (.cons (keyword_toldBy_types .object) .nil))

/-- **Violations.** The bundled schema tells of each rule that a document breaks, and of nothing
else. -/
theorem toldBy_bundled : Schema.bundled.ToldBy metadataRules :=
  toldBy_table (.cons (toldBy_typed _) (.cons toldBy_item (.cons toldBy_metrics
    (.cons toldBy_model (.cons toldBy_time (.cons (toldBy_typed _) .nil)))))) _

theorem obeys_item : Obeys itemRules = IsItem := by
  funext v
  simp only [itemRules, obeys_table, obeys_text, isItem_iff, Json.requires_iff,
    List.forall_mem_cons, List.not_mem_nil, false_implies, implies_true, eq_iff_iff]
  tauto

/-- A value obeys the rules of metrics exactly if it has them. -/
theorem obeys_metrics : Obeys metricsRules = IsMetrics := by
  funext v
  simp only [metricsRules, obeys_table, obeys_text, obeys_integer, obeys_list, isMetrics_iff,
    Json.requires_iff, List.forall_mem_cons, List.not_mem_nil, false_implies, implies_true,
    eq_iff_iff]
  tauto

theorem obeys_model : Obeys modelRules = IsModel := by
  funext v
  simp only [modelRules, obeys_table, obeys_text, obeys_integer, obeys_truthValue,
    obeys_textsFirst, isModel_iff, Json.requires_iff, List.forall_mem_cons, List.not_mem_nil,
    false_implies, implies_true, eq_iff_iff]
  tauto

theorem obeys_time : Obeys timeRules = IsTime := by
  funext v
  simp only [timeRules, obeys_table, obeys_text, isTime_iff, List.forall_mem_cons,
    List.not_mem_nil, false_implies, implies_true, eq_iff_iff]
  tauto

/-- A document obeys the rules of metadata exactly if it is metadata. -/
theorem obeys_metadata : Obeys metadataRules = IsMetadata := by
  funext v
  simp only [metadataRules, obeys_table, obeys_text, obeys_integer, obeys_item, obeys_metrics,
    obeys_model, obeys_time, isMetadata_iff, Json.requires_iff, List.forall_mem_cons,
    List.not_mem_nil, false_implies, implies_true, eq_iff_iff]
  tauto

/-- **Valid documents.** -/
theorem violations_bundled_eq_nil_iff {document : Json} :
    violations document Schema.bundled = [] ↔ IsMetadata document := by
  rw [toldBy_bundled.violations_eq_nil_iff, obeys_metadata]

-- ---------------------------------------------------------------------------
-- As it is written
-- ---------------------------------------------------------------------------

namespace Bundled

def typeText (name : String) : Json := .object [("type", .string name)]

def textsFirstText (n : Nat) : Json :=
  .object [("items", .array (List.replicate n (typeText "string"))), ("type", .string "array")]

def requiredText (names : List String) : String × Json :=
  ("required", .array (names.map .string))

def document : Json :=
  .object
    [("$schema", .string "http://json-schema.org/draft-04/schema#"),
      ("properties", .object
        [("gid", typeText "integer"),
          ("item", .object
            [("properties", .object
              [("description", typeText "string"), ("food_type", typeText "string"),
                ("nutrition_subgroup", typeText "string")]),
              requiredText ["nutrition_subgroup", "food_type", "description"],
              ("type", .string "object")]),
          ("metrics", .object
            [("properties", .object
              [("ingredients", .object [("items", .object []), ("type", .string "array")]),
                ("unit", typeText "string"), ("weight", typeText "integer")]),
              requiredText ["weight", "unit"],
              ("type", .string "object")]),
          ("model", .object
            [("properties", .object
              [("merged", typeText "boolean"), ("nutrition_facts_sources", textsFirstText 3),
                ("project_name", typeText "string"), ("quality", typeText "integer"),
                ("quality_comments", typeText "string"), ("rgbd_file_names", textsFirstText 1),
                ("texture_sources", textsFirstText 4), ("textured", typeText "boolean")]),
              requiredText ["project_name", "rgbd_file_names"],
              ("type", .string "object")]),
          ("time", .object
            [("properties", .object
              [("finished", typeText "string"), ("started", typeText "string")]),
              ("type", .string "object")]),
          ("uid", typeText "string")]),
      requiredText ["gid", "uid", "item", "metrics", "model", "time"],
      ("type", .string "object")]

end Bundled

/-- The name of a draft asks nothing of a value. -/
theorem ofJson?_schemaName (draft : Draft) {url : String} (h : Url.isAbsolute url = true)
    (members : List (String × Json)) :
    ofJson? draft (.object (("$schema", .string url) :: members)) =
      ofJson? draft (.object members) := by
  have hKeyword : plainKeyword? draft "$schema" (.string url) = some [] := by
    simp [plainKeyword?, h]
  simp [ofJson?, others?, named?, keywords?, hKeyword]

/-- The document is a value as any text of it is read: every object has its keys ascending. So
properties are checked, and breaches told, in this order. -/
theorem canonical_document : Bundled.document.Canonical :=
  (Json.isCanonical_iff _).mp (by decide +kernel)

/-- The document is read as the bundled schema. -/
theorem ofDocument_bundled : ofDocument Bundled.document = .ok Schema.bundled := by
  have hUrl : Url.isAbsolute "http://json-schema.org/draft-04/schema#" = true := by decide +kernel
  have hDraft : draftOf Bundled.document = .four := rfl
  rw [ofDocument, hDraft, Bundled.document, ofJson?_schemaName .four hUrl]
  rfl

/-- A document fails with all its breaches in order, or passes. -/
theorem validate_eq (schema : Schema) (document : Json) (path : String) :
    schema.validate document path =
      if violations document schema = [] then .ok ()
      else .error (.schemaViolation path ((violations document schema).map Violation.message)) := by
  rw [validate]
  cases violations document schema <;> rfl

/-- A document passes when it breaches nothing. -/
theorem validate_eq_ok_iff {schema : Schema} {document : Json} {path : String} :
    schema.validate document path = .ok () ↔ violations document schema = [] := by
  rw [validate_eq]
  split <;> simp [*]

end Schema

/--
**The bundled schema accepts exactly the metadata documents.**

1. It is what its document is read as, by draft 4, the keys of every object in ascending order.
2. A document passes if and only if it is one of a metadata file.
3. Any other document is refused with one message for each rule that it breaks, in the order of the
   rules; and there is such a rule.
-/
theorem bundled_accepts_exactly_metadata (document : Json) (path : String) :
    (Schema.Bundled.document.Canonical ∧
      Schema.ofDocument Schema.Bundled.document = .ok Schema.bundled) ∧
    (Schema.bundled.validate document path = .ok () ↔ IsMetadata document) ∧
    (¬ IsMetadata document → ∃ breaches : List Violation, breaches ≠ [] ∧
      breaches = Schema.metadataRules.filterMap (·.breach? document) ∧
      Schema.bundled.validate document path =
        .error (.schemaViolation path (breaches.map Violation.message))) := by
  refine ⟨⟨Schema.canonical_document, Schema.ofDocument_bundled⟩, ?_, fun hNot => ?_⟩
  · rw [Schema.validate_eq_ok_iff, Schema.violations_bundled_eq_nil_iff]
  · rw [← Schema.violations_bundled_eq_nil_iff] at hNot
    refine ⟨violations document Schema.bundled, hNot, Schema.toldBy_bundled document, ?_⟩
    rw [Schema.validate_eq, if_neg hNot]

/-- A document that has no more than it needs, and the same with a float for its identifier and a
number for the first of its files. -/
theorem bundled_accepts_exactly_metadata_of_float_gid :
    let text : Json := .string "x"
    let one : Json := .number (.integer 1)
    let item : Json := .object
      [("description", text), ("food_type", text), ("nutrition_subgroup", text)]
    let metrics : Json := .object [("unit", text), ("weight", one)]
    let model (files : List Json) : Json := .object
      [("project_name", text), ("rgbd_file_names", .array files)]
    let document (gid : Json) (files : List Json) : Json := .object
      [("gid", gid), ("item", item), ("metrics", metrics), ("model", model files),
        ("time", .object []), ("uid", text)]
    let float : Json := .number (.float (Binary64.ofInt 1))
    Schema.bundled.validate (document one [text, one]) "a.toml" = .ok () ∧
      Schema.bundled.validate (document float [one, text]) "a.toml" =
        .error (.schemaViolation "a.toml"
          ["1.0 is not of type \"integer\" (at /gid)",
            "1 is not of type \"string\" (at /model/rgbd_file_names/0)"]) := by
  intro text one item metrics model document float
  have hText : text.IsText := ⟨_, rfl⟩
  have hItem : IsItem item := ⟨⟨_, rfl⟩, ⟨_, rfl, hText⟩, ⟨_, rfl, hText⟩, ⟨_, rfl, hText⟩⟩
  have hMetrics : IsMetrics metrics :=
    ⟨⟨_, rfl⟩, ⟨_, rfl, _, rfl⟩, ⟨_, rfl, hText⟩, by rintro w ⟨⟩⟩
  have hFiles : Json.StartsWithTexts 1 (.array [text, one]) :=
    ⟨_, rfl, fun w hw => List.mem_singleton.mp hw ▸ hText⟩
  have hModel : IsModel (model [text, one]) := by
    refine ⟨⟨_, rfl⟩, ⟨_, rfl, hText⟩, ⟨_, rfl, hFiles⟩, ?_, ?_, ?_, ?_, ?_, ?_⟩ <;> rintro w ⟨⟩
  have hTime : IsTime (.object []) := ⟨⟨_, rfl⟩, by rintro w ⟨⟩, by rintro w ⟨⟩⟩
  obtain ⟨-, hAccepted, -⟩ := bundled_accepts_exactly_metadata (document one [text, one]) "a.toml"
  obtain ⟨-, -, hRefused⟩ := bundled_accepts_exactly_metadata (document float [one, text]) "a.toml"
  constructor
  · exact hAccepted.mpr ⟨⟨_, rfl⟩, ⟨_, rfl, _, rfl⟩, ⟨_, rfl, hText⟩, ⟨_, rfl, hItem⟩,
      ⟨_, rfl, hMetrics⟩, ⟨_, rfl, hModel⟩, ⟨_, rfl, hTime⟩⟩
  · -- a float is no integer, even one without a fraction
    have hNot : ¬ IsMetadata (document float [one, text]) := by
      rintro ⟨-, ⟨w, hMember, hInteger⟩, -⟩
      have hSame : float = w := Option.some.inj hMember
      obtain ⟨n, hn⟩ := hInteger
      simp [← hSame, float] at hn
    obtain ⟨breaches, -, hBreaches, hValidate⟩ := hRefused hNot
    rw [hValidate, hBreaches]
    decide +kernel

end FoodScan
