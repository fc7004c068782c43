import FoodScan.Proofs.Loading.AllOrNothing
import FoodScan.Proofs.Query.Warnings
import FoodScan.Proofs.Schema.Bundled
import FoodScan.Proofs.Toml.Value

/-!
# The fields of a valid file

The bundled schema and flattening know nothing of each other, and yet they fit together. The schema
asks for an integer `gid`, and integers of a metadata file have 64 signed bits, which is what an
identifier needs (`IsMetadata.exists_identifier`). It asks for nine members, in the document or in
one of its tables, and flattening drops no definition: another one of the same name may take its
place, but the name stays (`IsMetadata.defines`).

Main result: `valid_file_gives_guaranteed_fields`.
-/

namespace FoodScan

/-- The names that every metadata document defines, in the order in which the schema asks for
them. -/
def guaranteedFields : List String :=
  ["gid", "uid", "nutrition_subgroup", "food_type", "description", "weight", "unit",
    "project_name", "rgbd_file_names"]

-- ---------------------------------------------------------------------------
-- What a document defines
-- ---------------------------------------------------------------------------

section Definitions

variable {members : List (String × Json)} {name : String} {P : Json → Prop}

/-- A name that a member defines is defined in the document. -/
theorem mem_keys_definitions_of_mem {key : String} {v : Json} (hMember : (key, v) ∈ members)
    (hDefined : name ∈ Entries.keys (definitionsOf (key, v))) :
    name ∈ Entries.keys (definitions members) := by
  obtain ⟨e, he, rfl⟩ := List.mem_map.mp hDefined
  exact List.mem_map_of_mem (List.mem_flatMap.mpr ⟨(key, v), hMember, he⟩)

/-- A member that is no table defines its own name. -/
theorem mem_keys_definitions (h : (Json.object members).Requires name P)
    (hP : ∀ w, P w → ¬ w.IsObject) : name ∈ Entries.keys (definitions members) := by
  obtain ⟨w, hMember, hw⟩ := h
  refine mem_keys_definitions_of_mem (Entries.mem_of_lookup_eq_some hMember) ?_
  cases w with
  | object table => exact absurd ⟨table, rfl⟩ (hP _ hw)
  | _ => exact List.mem_singleton.mpr rfl

/-- A table defines the names of its members. -/
theorem mem_keys_definitions_of_table {key : String} {w : Json}
    (hTable : (Json.object members).member? key = some w) (h : w.Requires name P) :
    name ∈ Entries.keys (definitions members) := by
  obtain ⟨u, hMember, -⟩ := h
  refine mem_keys_definitions_of_mem (Entries.mem_of_lookup_eq_some hTable) ?_
  cases w with
  | object table => exact List.mem_map_of_mem (Entries.mem_of_lookup_eq_some hMember)
  | _ => cases hMember

end Definitions

theorem Json.IsInteger.not_isObject {v : Json} (h : v.IsInteger) : ¬ v.IsObject := by
  obtain ⟨n, rfl⟩ := h
  rintro ⟨members, ⟨⟩⟩

theorem Json.IsText.not_isObject {v : Json} (h : v.IsText) : ¬ v.IsObject := by
  obtain ⟨s, rfl⟩ := h
  rintro ⟨members, ⟨⟩⟩

namespace IsMetadata

/-- A metadata document defines the guaranteed names. -/
theorem defines {members : List (String × Json)} (h : IsMetadata (.object members)) :
    guaranteedFields ⊆ Entries.keys (definitions members) := by
  obtain ⟨item, hItem, isItem⟩ := h.item
  obtain ⟨metrics, hMetrics, isMetrics⟩ := h.metrics
  obtain ⟨model, hModel, isModel⟩ := h.model
  have hOwn : ∀ name ∈ ["gid", "uid"], name ∈ Entries.keys (definitions members) := by
    simp only [List.forall_mem_cons]
    exact ⟨mem_keys_definitions h.gid fun _ => Json.IsInteger.not_isObject,
      mem_keys_definitions h.uid fun _ => Json.IsText.not_isObject, by simp⟩
  have hOfItem : ∀ name ∈ ["nutrition_subgroup", "food_type", "description"],
      name ∈ Entries.keys (definitions members) := by
    simp only [List.forall_mem_cons]
    exact ⟨mem_keys_definitions_of_table hItem isItem.nutritionSubgroup,
      mem_keys_definitions_of_table hItem isItem.foodType,
      mem_keys_definitions_of_table hItem isItem.description, by simp⟩
  have hOfMetrics : ∀ name ∈ ["weight", "unit"], name ∈ Entries.keys (definitions members) := by
    simp only [List.forall_mem_cons]
    exact ⟨mem_keys_definitions_of_table hMetrics isMetrics.weight,
      mem_keys_definitions_of_table hMetrics isMetrics.unit, by simp⟩
  have hOfModel : ∀ name ∈ ["project_name", "rgbd_file_names"],
      name ∈ Entries.keys (definitions members) := by
    simp only [List.forall_mem_cons]
    exact ⟨mem_keys_definitions_of_table hModel isModel.projectName,
      mem_keys_definitions_of_table hModel isModel.rgbdFileNames, by simp⟩
  intro name hName
  -- the guaranteed fields fall into those of the document itself and those of its three tables
  have hGroups : name ∈ ["gid", "uid"] ++ (["nutrition_subgroup", "food_type", "description"] ++
      (["weight", "unit"] ++ ["project_name", "rgbd_file_names"])) := hName
  rcases List.mem_append.mp hGroups with hName | hGroups
  · exact hOwn name hName
  rcases List.mem_append.mp hGroups with hName | hGroups
  · exact hOfItem name hName
  rcases List.mem_append.mp hGroups with hName | hName
  · exact hOfMetrics name hName
  · exact hOfModel name hName

/-- The `gid` of a metadata file identifies its record. -/
theorem exists_identifier {entries : List (String × Toml.Value)} {members : List (String × Json)}
    (hTable : (Toml.Value.table entries).toJson = .object members)
    (h : IsMetadata (.object members)) :
    ∃ identifier, (members.lookup identifierField).bind Json.toInt64? = some identifier := by
  obtain ⟨w, hMember, n, rfl⟩ := h.gid
  obtain rfl : Entries.ofList (Toml.Value.entriesToJson entries) = members := Json.object.inj hTable
  have hLookup := hMember
  rw [Json.member?, Toml.Value.lookup_ofList_entriesToJson] at hLookup
  obtain ⟨v, -, hValue⟩ := Option.map_eq_some_iff.mp hLookup
  obtain ⟨identifier, hInt⟩ := Toml.Value.exists_toInt64?_of_toJson hValue
  rw [hValue] at hInt
  exact ⟨identifier, Option.bind_eq_some_iff.mpr ⟨_, hMember, hInt⟩⟩

end IsMetadata

-- ---------------------------------------------------------------------------
-- Files
-- ---------------------------------------------------------------------------

variable {tree : FileTree} {workingDirectory : List String} {format : MetadataFormat}
  {path : String}

/-- A valid file has a record, unless some value has no row. -/
theorem loadFile_of_isMetadata {text : String} {value : Toml.Value}
    (hText : tree.readText workingDirectory path = .ok text) (hToml : Toml.parse text = some value)
    (hValid : IsMetadata value.toJson) :
    (∃ r, loadFile tree workingDirectory Schema.bundled format path = .ok r) ∨
      ∃ field why, loadFile tree workingDirectory Schema.bundled format path =
        .error (.unsupportedValue path field why) := by
  have hLoad : loadFile tree workingDirectory Schema.bundled format path =
      flatten value.toJson path :=
    loadFile_eq_iff.mpr
      (.flattened hText hToml (Schema.violations_bundled_eq_nil_iff.mpr hValid))
  obtain ⟨members, hMembers⟩ := hValid.object
  cases value with
  | table entries =>
    obtain ⟨identifier, hId⟩ := IsMetadata.exists_identifier hMembers (hMembers ▸ hValid)
    rw [hLoad, hMembers]
    exact flatten_of_identifier hId
  | float x =>
    -- a file can be the long form of a date or time, but it is no table then
    rw [Toml.Value.toJson] at hMembers
    split at hMembers <;> cases hMembers
  | _ => cases hMembers

/-- The record of a valid file has the guaranteed fields. -/
theorem guaranteedFields_subset_keys {r : Record}
    (h : loadFile tree workingDirectory Schema.bundled format path = .ok r) :
    guaranteedFields ⊆ r.fields.keys := by
  have hOutcome := loadFile_eq_iff.mp h
  generalize hResult : Except.ok r = result at hOutcome
  cases hOutcome with
  | flattened _ _ hSchema =>
    have hValid := Schema.violations_bundled_eq_nil_iff.mp hSchema
    obtain ⟨members, rows, hMembers, hFlattening⟩ := flatten_eq_ok_iff.mp hResult.symm
    rw [hMembers] at hValid
    intro name hName
    exact hFlattening.mem_keys_iff.mpr (hValid.defines hName)
  | _ => cases hResult

/-- Records have nothing to warn of if they have all the fields asked for. -/
theorem Query.collect_warnings_eq_nil {records : List Record} {q : Query}
    (h : ∀ r ∈ records, q.fieldNames ⊆ r.fields.keys) : (q.collect records).warnings = [] := by
  rw [collect_warnings_eq_lacking, List.flatMap_eq_nil_iff]
  intro r hr
  rw [Record.lackingWarnings, List.map_eq_nil_iff, List.filter_eq_nil_iff]
  intro name hName
  simpa using h r hr hName

/--
**Schema and flattening fit together.**

1. A file that is TOML and passes the bundled schema is loaded, unless it has a value that has no
   row: it does not fail in any other way.
2. The record of a file that was loaded with the bundled schema has the guaranteed fields.
3. So a query for some of these fields, whatever its mode, has nothing to warn of, whichever such
   records it is put to.
-/
theorem valid_file_gives_guaranteed_fields :
    (∀ (tree : FileTree) (workingDirectory : List String) (format : MetadataFormat)
      (path text : String) (value : Toml.Value),
      tree.readText workingDirectory path = .ok text → Toml.parse text = some value →
      Schema.bundled.validate value.toJson path = .ok () →
        (∃ r, loadFile tree workingDirectory Schema.bundled format path = .ok r) ∨
          ∃ field why, loadFile tree workingDirectory Schema.bundled format path =
            .error (.unsupportedValue path field why)) ∧
    (∀ (tree : FileTree) (workingDirectory : List String) (format : MetadataFormat)
      (path : String) (r : Record),
      loadFile tree workingDirectory Schema.bundled format path = .ok r →
        guaranteedFields ⊆ r.fields.keys) ∧
    (∀ (records : List Record) (q : Query),
      (∀ r ∈ records, ∃ tree workingDirectory format path,
        loadFile tree workingDirectory Schema.bundled format path = .ok r) →
      q.fieldNames ⊆ guaranteedFields → (q.collect records).warnings = []) := by
  refine ⟨?_, fun _ _ _ _ _ => guaranteedFields_subset_keys, ?_⟩
  · intro tree workingDirectory format path text value hText hToml hValid
    have hNone := Schema.validate_eq_ok_iff.mp hValid
    exact loadFile_of_isMetadata hText hToml (Schema.violations_bundled_eq_nil_iff.mp hNone)
  · intro records q hLoaded hNames
    refine Query.collect_warnings_eq_nil fun r hr => ?_
    obtain ⟨tree, workingDirectory, format, path, hLoad⟩ := hLoaded r hr
    exact List.Subset.trans hNames (guaranteedFields_subset_keys hLoad)

/-- A valid file whose last table has another `gid`. -/
theorem valid_file_gives_guaranteed_fields_despite_late_gid :
    let text : String := "gid=1\nuid=''\n" ++
      "[item]\nnutrition_subgroup=''\nfood_type=''\ndescription=''\n" ++
      "[metrics]\nweight=2\nunit=''\n" ++
      "[model]\nproject_name=''\nrgbd_file_names=[]\n" ++
      "[time]\n[zone]\ngid='x'"
    let tree : FileTree := .directory [("a.toml", .file text.toUTF8)]
    let load : Except LoadError Record := loadFile tree [] Schema.bundled .toml "a.toml"
    let query : Query := ⟨.or, [("weight", .one (.int 2)), ("gid", .one (.int 1))]⟩
    ((∃ r, load = .ok r) ∨ ∃ field why, load = .error (.unsupportedValue "a.toml" field why)) ∧
    ∃ r, load = .ok r ∧ r.fields.get? "gid" = some [.scalar (.text "x")] ∧
      guaranteedFields ⊆ r.fields.keys ∧ (query.collect [r, r]).warnings = [] := by
  intro text tree load query
  obtain ⟨hLoads, hFields, hQuiet⟩ := valid_file_gives_guaranteed_fields
  have hText : tree.readText [] "a.toml" = .ok text :=
    FileTree.readText_of_toUTF8 (FileTree.find_eq_ok_iff.mpr ⟨["a.toml"], by decide +kernel, rfl⟩)
  -- one evaluation gives both facts about the parsed value
  have hRead : (Toml.parse text).map (fun value =>
      (Schema.bundled.validate value.toJson "a.toml",
        (flatten value.toJson "a.toml").toOption.bind fun r => r.fields.get? "gid")) =
      some (.ok (), some [.scalar (.text "x")]) := by decide +kernel
  obtain ⟨value, hToml, hPair⟩ := Option.map_eq_some_iff.mp hRead
  obtain ⟨hPasses, hGid⟩ := Prod.mk.inj hPair
  obtain ⟨r, hRecord, hRow⟩ := Option.bind_eq_some_iff.mp hGid
  have hLoad : load = .ok r :=
    toOption_eq_some_iff.mp hRecord ▸
      loadFile_eq_iff.mpr (.flattened hText hToml (Schema.validate_eq_ok_iff.mp hPasses))
  have hNames : query.fieldNames ⊆ guaranteedFields := by decide
  refine ⟨hLoads tree [] .toml "a.toml" text value hText hToml hPasses, r, hLoad, hRow,
    hFields tree [] .toml "a.toml" r hLoad, hQuiet [r, r] query ?_ hNames⟩
  intro r' hr'
  obtain rfl : r' = r := by simpa using hr'
  exact ⟨tree, [], .toml, "a.toml", hLoad⟩

end FoodScan
