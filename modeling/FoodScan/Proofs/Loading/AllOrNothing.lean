import FoodScan.Loading
import FoodScan.Proofs.Loading.Discovery
import FoodScan.Proofs.Loading.Gathering
import FoodScan.Proofs.Record.Flattening

/-!
# A load is all or nothing

A load goes through stages: the schema, the directory, and then for each file its text, its TOML,
its schema and its rows. The stages of the schema and those of a file are written out as judgments,
`SchemaOutcome` and `FileOutcome`, with one rule for each way in which they can end; the first stage
that fails decides. `loadSchema_eq_iff` and `loadFile_eq_iff` say that loading follows them.

The files are loaded side by side, so what a load comes to is stated of every way to gather their
results (`Gathering.MayEndIn`), of which checking file after file is one:

* `AllOrNothing.of_schema_error`, `AllOrNothing.of_no_directory`, `AllOrNothing.of_walkError?` — the
  schema comes before the directory, then the walk over it, and all of them before the files;
* `AllOrNothing.of_mayEndIn` — with a schema and paths, a load succeeds exactly if every file does,
  with one record for each path, in the order of the paths, and the only file that fails decides.

`load_all_or_nothing` puts these together.
-/

namespace FoodScan

variable {tree : FileTree} {workingDirectory : List String}

-- ---------------------------------------------------------------------------
-- The schema
-- ---------------------------------------------------------------------------

/-- What comes of the source of a schema. A file must be there, be text, and hold a schema. -/
inductive SchemaOutcome (tree : FileTree) (workingDirectory : List String) :
    SchemaSource → Except LoadError Schema → Prop
  | bundled : SchemaOutcome tree workingDirectory .bundled (.ok Schema.bundled)
  | notFound {path : String}
    (hNoFile : ∀ content, tree.find workingDirectory path ≠ .ok (.file content)) :
    SchemaOutcome tree workingDirectory (.file path) (.error (.schemaNotFound path))
  | unreadable {path : String} {content : ByteArray} {fault : FileFault}
    (hFile : tree.find workingDirectory path = .ok (.file content))
    (hText : tree.readText workingDirectory path = .error fault) :
    SchemaOutcome tree workingDirectory (.file path) (.error (.file path fault))
  | invalid {path text : String} {fault : SchemaFault}
    (hText : tree.readText workingDirectory path = .ok text)
    (hSchema : Schema.parse text = .error fault) :
    SchemaOutcome tree workingDirectory (.file path) (.error (.invalidSchema fault))
  | valid {path text : String} {schema : Schema}
    (hText : tree.readText workingDirectory path = .ok text)
    (hSchema : Schema.parse text = .ok schema) :
    SchemaOutcome tree workingDirectory (.file path) (.ok schema)

/-- Loading the schema comes to one of the outcomes there are. -/
theorem schemaOutcome_loadSchema (tree : FileTree) (workingDirectory : List String)
    (source : SchemaSource) :
    SchemaOutcome tree workingDirectory source (loadSchema tree workingDirectory source) := by
  cases source with
  | bundled => exact .bundled
  | file path =>
    rw [loadSchema]
    by_cases hHas : tree.hasFile workingDirectory path = true
    · -- the path leads to a file, which may still be unreadable as text
      rw [hHas]
      obtain ⟨content, hFile⟩ := FileTree.hasFile_eq_true_iff.mp hHas
      cases hText : tree.readText workingDirectory path with
      | error fault => exact .unreadable hFile hText
      | ok text =>
        cases hSchema : Schema.parse text with
        | error fault => simpa [hSchema, Except.mapError] using .invalid hText hSchema
        | ok schema => simpa [hSchema, Except.mapError] using .valid hText hSchema
    · rw [Bool.eq_false_iff.mpr hHas]
      refine .notFound fun content hFile => ?_
      exact hHas (FileTree.hasFile_eq_true_iff.mpr ⟨content, hFile⟩)

/-- The outcomes exclude each other. -/
theorem SchemaOutcome.unique {source : SchemaSource} {result result' : Except LoadError Schema}
    (h : SchemaOutcome tree workingDirectory source result)
    (h' : SchemaOutcome tree workingDirectory source result') : result = result' := by
  -- a text comes from a file, so a source that has one is not missing
  have hFound : ∀ {path text : String}, tree.readText workingDirectory path = .ok text →
      ∃ content, tree.find workingDirectory path = .ok (.file content) := by
    intro path text hText
    obtain ⟨content, hFile, -⟩ := FileTree.readText_eq_ok_iff.mp hText
    exact ⟨content, hFile⟩
  cases h <;> cases h' <;> grind

/-- The schema comes to what its outcome says, and to nothing else. -/
theorem loadSchema_eq_iff {source : SchemaSource} {result : Except LoadError Schema} :
    loadSchema tree workingDirectory source = result ↔
      SchemaOutcome tree workingDirectory source result := by
  constructor
  · rintro rfl
    exact schemaOutcome_loadSchema tree workingDirectory source
  · exact (schemaOutcome_loadSchema tree workingDirectory source).unique

-- ---------------------------------------------------------------------------
-- One file
-- ---------------------------------------------------------------------------

/-- What comes of a metadata file. It must be text, be TOML, and satisfy the schema, before it is
flattened. -/
inductive FileOutcome (tree : FileTree) (workingDirectory : List String) (schema : Schema)
    (path : String) : Except LoadError Record → Prop
  | unreadable {fault : FileFault} (hText : tree.readText workingDirectory path = .error fault) :
    FileOutcome tree workingDirectory schema path (.error (.file path fault))
  | notToml {text : String} (hText : tree.readText workingDirectory path = .ok text)
    (hToml : Toml.parse text = none) :
    FileOutcome tree workingDirectory schema path (.error (.malformed path .syntaxError))
  | violation {text : String} {table : Toml.Value}
    (hText : tree.readText workingDirectory path = .ok text) (hToml : Toml.parse text = some table)
    (hSchema : schema.violations table.toJson ≠ []) :
    FileOutcome tree workingDirectory schema path
      (.error
        (.schemaViolation path ((schema.violations table.toJson).map Schema.Violation.message)))
  | flattened {text : String} {table : Toml.Value}
    (hText : tree.readText workingDirectory path = .ok text) (hToml : Toml.parse text = some table)
    (hSchema : schema.violations table.toJson = []) :
    FileOutcome tree workingDirectory schema path (flatten table.toJson path)

variable {schema : Schema} {format : MetadataFormat} {path : String}

/-- Loading a file fails at the first stage that refuses it, or gives its record. -/
theorem fileOutcome_loadFile (tree : FileTree) (workingDirectory : List String) (schema : Schema)
    (format : MetadataFormat) (path : String) :
    FileOutcome tree workingDirectory schema path
      (loadFile tree workingDirectory schema format path) := by
  cases format with
  | toml =>
    rw [loadFile, readDocument]
    cases hText : tree.readText workingDirectory path with
    | error fault => exact .unreadable hText
    | ok text =>
      simp only [MetadataFormat.document]
      -- each stage is reached only past the one before it, so the cases nest as the stages follow
      cases hToml : Toml.parse text with
      | none => exact .notToml hText hToml
      | some table =>
        simp only [bind, Except.bind, Schema.validate]
        cases hSchema : schema.violations table.toJson with
        | nil => exact .flattened hText hToml hSchema
        | cons violation rest =>
          have hSome : schema.violations table.toJson ≠ [] := by simp [hSchema]
          have hOutcome := FileOutcome.violation hText hToml hSome
          rw [hSchema] at hOutcome
          exact hOutcome

/-- The outcomes of a file exclude each other, each stage asking that those before it went well. -/
theorem FileOutcome.unique {result result' : Except LoadError Record}
    (h : FileOutcome tree workingDirectory schema path result)
    (h' : FileOutcome tree workingDirectory schema path result') : result = result' := by
  cases h <;> cases h' <;> grind

/-- A file comes to what its outcome says, and to nothing else. -/
theorem loadFile_eq_iff {result : Except LoadError Record} :
    loadFile tree workingDirectory schema format path = result ↔
      FileOutcome tree workingDirectory schema path result := by
  constructor
  · rintro rfl
    exact fileOutcome_loadFile tree workingDirectory schema format path
  · exact (fileOutcome_loadFile tree workingDirectory schema format path).unique

/-- A record names the file that it is from. -/
theorem source_of_loadFile {r : Record}
    (h : loadFile tree workingDirectory schema format path = .ok r) : r.source = some path := by
  have hOutcome := loadFile_eq_iff.mp h
  generalize hResult : Except.ok r = result at hOutcome
  cases hOutcome with
  | flattened =>
    -- of the stages only the last one gives a record
    obtain ⟨members, rows, -, hFlattening⟩ := flatten_eq_ok_iff.mp hResult.symm
    exact hFlattening.source
  | _ => cases hResult

-- ---------------------------------------------------------------------------
-- The whole load
-- ---------------------------------------------------------------------------

/-- What is promised of the outcome of a load. -/
structure AllOrNothing (tree : FileTree) (workingDirectory : List String) (config : Config)
    (outcome : Except LoadError (List Record)) : Prop where
  /-- Without a schema nothing else counts. -/
  schema : ∀ e, loadSchema tree workingDirectory config.schema = .error e → outcome = .error e
  /-- Without a directory no file counts. -/
  directory : ∀ schema, loadSchema tree workingDirectory config.schema = .ok schema →
    tree.entriesAt? workingDirectory config.directory = none →
    outcome = .error (.directoryNotFound config.directory)
  /-- Nor does any count if the walk over the directory ends early. -/
  walk : ∀ schema entries e, loadSchema tree workingDirectory config.schema = .ok schema →
    tree.entriesAt? workingDirectory config.directory = some entries →
    walkError? tree workingDirectory config entries = some e → outcome = .error e
  /-- The load succeeds if every file does, and only then. -/
  success : ∀ schema paths, loadSchema tree workingDirectory config.schema = .ok schema →
    discover tree workingDirectory config = .ok paths →
    ((∃ records, outcome = .ok records) ↔
      ∀ path ∈ paths, ∃ r, loadFile tree workingDirectory schema config.format path = .ok r)
  /-- Then there is one record for each path, in the order of the paths. -/
  records : ∀ schema paths records, loadSchema tree workingDirectory config.schema = .ok schema →
    discover tree workingDirectory config = .ok paths → outcome = .ok records →
    List.Forall₂ (fun path r => loadFile tree workingDirectory schema config.format path = .ok r ∧
      r.source = some path) paths records
  /-- The only file that fails decides, wherever it is. -/
  failure : ∀ schema paths path e, loadSchema tree workingDirectory config.schema = .ok schema →
    discover tree workingDirectory config = .ok paths → path ∈ paths →
    loadFile tree workingDirectory schema config.format path = .error e →
    (∀ other ∈ paths, other ≠ path →
      ∃ r, loadFile tree workingDirectory schema config.format other = .ok r) →
    outcome = .error e

variable {config : Config}

/-- If the schema cannot be loaded, nothing else is looked at. -/
theorem AllOrNothing.of_schema_error {e : LoadError}
    (hSchema : loadSchema tree workingDirectory config.schema = .error e) :
    AllOrNothing tree workingDirectory config (.error e) := by
  constructor <;> grind

/-- If there is no data directory, that is reported before any file is. -/
theorem AllOrNothing.of_no_directory {schema : Schema}
    (hSchema : loadSchema tree workingDirectory config.schema = .ok schema)
    (hDirectory : tree.entriesAt? workingDirectory config.directory = none) :
    AllOrNothing tree workingDirectory config (.error (.directoryNotFound config.directory)) := by
  have hDiscover := discover_of_no_directory hDirectory
  constructor <;> grind

/-- If a directory below cannot be opened, that is reported before any file is. -/
theorem AllOrNothing.of_walkError? {schema : Schema} {entries : List (String × FileTree)}
    {e : LoadError} (hSchema : loadSchema tree workingDirectory config.schema = .ok schema)
    (hEntries : tree.entriesAt? workingDirectory config.directory = some entries)
    (hWalk : walkError? tree workingDirectory config entries = some e) :
    AllOrNothing tree workingDirectory config (.error e) := by
  have hDiscover := discover_of_walkError? hEntries hWalk
  constructor <;> grind

/-- **Gathering the files.** In whatever order they are finished. -/
theorem AllOrNothing.of_mayEndIn {schema : Schema} {paths : List String}
    {outcome : Except LoadError (List Record)}
    (hSchema : loadSchema tree workingDirectory config.schema = .ok schema)
    (hPaths : discover tree workingDirectory config = .ok paths)
    (h : Gathering.MayEndIn (loadFile tree workingDirectory schema config.format) paths outcome) :
    AllOrNothing tree workingDirectory config outcome where
  schema e hError := by
    rw [hSchema] at hError
    cases hError
  directory schema' _ hDirectory := by
    rw [discover_of_no_directory hDirectory] at hPaths
    cases hPaths
  walk schema' entries e _ hEntries hWalk := by
    rw [discover_of_walkError? hEntries hWalk] at hPaths
    cases hPaths
  success schema' paths' hSchema' hPaths' := by
    -- there is one schema and one list of paths
    cases hSchema.symm.trans hSchema'
    cases hPaths.symm.trans hPaths'
    exact Gathering.exists_ok_iff_of_mayEndIn h
  records schema' paths' records hSchema' hPaths' hOk := by
    cases hSchema.symm.trans hSchema'
    cases hPaths.symm.trans hPaths'
    cases hOk
    exact (Gathering.forall₂_of_mayEndIn_ok h).imp fun path r hLoad =>
      ⟨hLoad, source_of_loadFile hLoad⟩
  failure schema' paths' path e hSchema' hPaths' hPath hError hOthers := by
    cases hSchema.symm.trans hSchema'
    cases hPaths.symm.trans hPaths'
    exact Gathering.eq_error_of_mayEndIn h hPath hError hOthers

theorem loadRecordsShowing_fst {schema : Schema} {paths : List String}
    (hSchema : loadSchema tree workingDirectory config.schema = .ok schema)
    (hPaths : discover tree workingDirectory config = .ok paths) (silent : Bool) :
    (loadRecordsShowing tree workingDirectory config silent).1 =
      paths.mapM (loadFile tree workingDirectory schema config.format) := by
  rw [loadRecordsShowing, hSchema, hPaths]

/-- The progress display has no part in what is loaded. -/
theorem loadRecordsShowing_fst_congr (tree : FileTree) (workingDirectory : List String)
    (config : Config) (silent silent' : Bool) :
    (loadRecordsShowing tree workingDirectory config silent).1 =
      (loadRecordsShowing tree workingDirectory config silent').1 := by
  rw [loadRecordsShowing, loadRecordsShowing]
  cases loadSchema tree workingDirectory config.schema with
  | error e => rfl
  | ok schema => cases discover tree workingDirectory config <;> rfl

theorem allOrNothing_loadRecordsShowing (tree : FileTree) (workingDirectory : List String)
    (config : Config) (silent : Bool) :
    AllOrNothing tree workingDirectory config
      (loadRecordsShowing tree workingDirectory config silent).1 := by
  -- the stages in order: the schema, the data directory, the walk of it, and then the files
  cases hSchema : loadSchema tree workingDirectory config.schema with
  | error e =>
    rw [loadRecordsShowing, hSchema]
    exact .of_schema_error hSchema
  | ok schema =>
    rcases discover_cases tree workingDirectory config with
      ⟨hDirectory, hPaths⟩ | ⟨entries, hEntries, ⟨e, hWalk, hPaths⟩ | ⟨-, paths, hPaths⟩⟩
    · rw [loadRecordsShowing, hSchema, hPaths]
      exact .of_no_directory hSchema hDirectory
    · rw [loadRecordsShowing, hSchema, hPaths]
      exact .of_walkError? hSchema hEntries hWalk
    · rw [loadRecordsShowing_fst hSchema hPaths]
      exact .of_mayEndIn hSchema hPaths (Gathering.mayEndIn_mapM _ paths)

/--
**Loading is all or nothing.** Whether a load is shown or silent,

1. it gives the same;
2. it keeps what `AllOrNothing` promises: schema, directory and files count in this order, the files
   all together or not at all;
3. the schema is what its source comes to;
4. a directory that is there has paths, unless the walk over it ends early, which it can only do at
   a subdirectory that it comes to, and only if subdirectories count;
5. what a file gives, a record or an error, is what it comes to: the first stage that fails decides;
6. any other way to gather the results of the files keeps the promise as well.
-/
theorem load_all_or_nothing (tree : FileTree) (workingDirectory : List String) (config : Config)
    (silent : Bool) :
    (loadRecordsShowing tree workingDirectory config silent).1 =
        loadRecords tree workingDirectory config ∧
    AllOrNothing tree workingDirectory config
      (loadRecordsShowing tree workingDirectory config silent).1 ∧
    (∀ result, loadSchema tree workingDirectory config.schema = result ↔
      SchemaOutcome tree workingDirectory config.schema result) ∧
    (∀ entries, tree.entriesAt? workingDirectory config.directory = some entries →
      (∃ paths, discover tree workingDirectory config = .ok paths) ∨
      config.recursive = true ∧ ∃ names ∈ directoriesAmong entries, ∃ fault,
        tree.find workingDirectory (pathBelow config.directory names) = .error fault ∧
        discover tree workingDirectory config =
          .error (.walk config.directory (pathBelow config.directory names) fault)) ∧
    (∀ schema path result, loadFile tree workingDirectory schema config.format path = result ↔
      FileOutcome tree workingDirectory schema path result) ∧
    ∀ schema paths outcome, loadSchema tree workingDirectory config.schema = .ok schema →
      discover tree workingDirectory config = .ok paths →
      Gathering.MayEndIn (loadFile tree workingDirectory schema config.format) paths outcome →
      AllOrNothing tree workingDirectory config outcome := by
  refine ⟨?_, allOrNothing_loadRecordsShowing tree workingDirectory config silent,
    fun _ => loadSchema_eq_iff, ?_, fun _ _ _ => loadFile_eq_iff,
    fun _ _ _ hSchema hPaths => .of_mayEndIn hSchema hPaths⟩
  · -- the silent load is the one that `loadRecords` makes
    exact loadRecordsShowing_fst_congr tree workingDirectory config silent true
  · intro entries hEntries
    cases hWalk : walkError? tree workingDirectory config entries with
    | none => exact .inl ⟨_, discover_eq_ok config hEntries hWalk⟩
    | some e =>
      obtain ⟨hRecursive, names, hMem, fault, hFault, rfl⟩ := walkError?_eq_some hWalk
      exact .inr ⟨hRecursive, names, hMem, fault, hFault, discover_of_walkError? hEntries hWalk⟩

/-- A schema that is missing beside a bad file, a directory that is missing, a bad file after a good
one, and no bad file at all. -/
theorem load_all_or_nothing_of_bad_file :
    let good : FileTree := .file "gid = 2".toUTF8
    let bad : FileTree := .file "gid = = 3".toUTF8
    let tree : FileTree := .directory
      [("s.json", .file "{}".toUTF8), ("mixed", .directory [("a.toml", good), ("b.toml", bad)]),
        ("fine", .directory [("a.toml", good), ("b.toml", good)])]
    let config (directory schema : String) : Config := { directory, schema := .file schema }
    let outcome (directory schema : String) : Except LoadError (List Record) :=
      (loadRecordsShowing tree [] (config directory schema) false).1
    outcome "mixed" "none.json" = .error (.schemaNotFound "none.json") ∧
      outcome "none" "s.json" = .error (.directoryNotFound "none") ∧
      outcome "mixed" "s.json" = .error (.malformed "mixed/b.toml" .syntaxError) ∧
      ∃ first second : Record, outcome "fine" "s.json" = .ok [first, second] ∧
        first.source = some "fine/a.toml" ∧ second.source = some "fine/b.toml" := by
  intro good bad tree config outcome
  have hSchema : loadSchema tree [] (.file "s.json") = .ok (.keywords []) := rfl
  -- both directories hold the same two names, so their paths are found in one go
  have hPaths : ∀ directory entries, tree.entriesAt? [] directory = some entries →
      isStandardInput directory = false →
      filesAmong .toml false entries = [["a.toml"], ["b.toml"]] →
      discover tree [] (config directory "s.json") =
        .ok [pathBelow directory ["a.toml"], pathBelow directory ["b.toml"]] := by
    intro directory entries hEntries hInput hWalk
    have hSorted : [["a.toml"], ["b.toml"]].mergeSort comesFirst = [["a.toml"], ["b.toml"]] :=
      List.mergeSort_of_pairwise (by decide +kernel)
    rw [discover_eq_ok (config directory "s.json") hEntries rfl, hInput, hWalk, hSorted]
    rfl
  have hMixed := hPaths "mixed" _ rfl (by decide) (by decide +kernel)
  have hFine := hPaths "fine" _ rfl (by decide) (by decide +kernel)
  obtain ⟨-, hNoSchema, -⟩ := load_all_or_nothing tree [] (config "mixed" "none.json") false
  obtain ⟨-, hNoDirectory, -⟩ := load_all_or_nothing tree [] (config "none" "s.json") false
  obtain ⟨-, hBadFile, -⟩ := load_all_or_nothing tree [] (config "mixed" "s.json") false
  obtain ⟨-, hGoodFiles, -⟩ := load_all_or_nothing tree [] (config "fine" "s.json") false
  have hNone : tree.entriesAt? [] "none" = none := Option.isNone_iff_eq_none.mp (by decide +kernel)
  refine ⟨hNoSchema.schema _ rfl, hNoDirectory.directory _ hSchema hNone, ?_, ?_⟩
  · have hGood : ∃ r, loadFile tree [] (.keywords []) .toml "mixed/a.toml" = .ok r :=
      ⟨⟨2, ⟨[("gid", [.scalar (.int 2)])], by decide +kernel⟩, some "mixed/a.toml"⟩,
        by decide +kernel⟩
    have hBad : loadFile tree [] (.keywords []) .toml "mixed/b.toml" =
        .error (.malformed "mixed/b.toml" .syntaxError) := by decide +kernel
    refine hBadFile.failure _ _ "mixed/b.toml" _ hSchema hMixed (by decide) hBad ?_
    intro other hOther hNe
    rcases List.mem_cons.mp hOther with rfl | hOther'
    · exact hGood
    · exact absurd (List.mem_singleton.mp hOther') hNe
  · have hGood : ∀ path ∈ ["fine/a.toml", "fine/b.toml"],
        ∃ r, loadFile tree [] (.keywords []) .toml path = .ok r := by
      intro path hPath
      refine ⟨⟨2, ⟨[("gid", [.scalar (.int 2)])], by decide +kernel⟩, some path⟩, ?_⟩
      revert path
      decide +kernel
    obtain ⟨records, hOk⟩ := (hGoodFiles.success _ _ hSchema hFine).mpr hGood
    have hRecords := hGoodFiles.records _ _ records hSchema hFine hOk
    obtain ⟨first, rest, ⟨-, hFirst⟩, hRest, rfl⟩ := List.forall₂_cons_left_iff.mp hRecords
    obtain ⟨second, none, ⟨-, hSecond⟩, hNil, rfl⟩ := List.forall₂_cons_left_iff.mp hRest
    obtain rfl := List.forall₂_nil_left_iff.mp hNil
    exact ⟨first, second, hOk, hFirst, hSecond⟩

end FoodScan
