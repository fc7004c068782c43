import FoodScan.Proofs.Loading.AllOrNothing

/-!
# What a run reads

A run reads its schema, the names in its directory, and the files that its configuration selects
among them (`Selected`). Nothing else of the tree counts:

* `exists_selection` — the paths are those of the selected files, in ascending order, if the walk
  can open what it comes to;
* `find_of_selected` — a selected file is found at its path, unless this is too long;
* `record?_congr` — what a file gives depends on its text, but for the source that the record names;
* `filterRecords_eq_ok_iff` — an outcome is what the query makes of the records of the files;
* `filterRecords_congr` — so a run is the same where all that it reads is.
-/

namespace FoodScan

open FileTree (IsName components)

variable {tree tree' : FileTree} {workingDirectory workingDirectory' : List String}
  {config : Config} {entries : List (String × FileTree)} {names : List String}

-- ---------------------------------------------------------------------------
-- Selected files
-- ---------------------------------------------------------------------------

/-- Names lead to a file that a configuration selects in the entries of its directory. A dash is the
standard input, in which none is. -/
structure Selected (config : Config) (entries : List (String × FileTree))
    (names : List String) : Prop where
  walked : isStandardInput config.directory = false
  found  : FoundAt config.format config.recursive entries names

/-- The selected files, each of them once, in any order. -/
structure Selection (config : Config) (entries : List (String × FileTree))
    (selected : List (List String)) : Prop where
  distinct : selected.Nodup
  mem_iff  : ∀ names, names ∈ selected ↔ Selected config entries names

/-- Two selections of the same entries differ in their order only. -/
theorem Selection.perm {selected selected' : List (List String)}
    (h : Selection config entries selected) (h' : Selection config entries selected') :
    selected.Perm selected' :=
  (List.perm_ext_iff_of_nodup h.distinct h'.distinct).mpr fun names =>
    (h.mem_iff names).trans (h'.mem_iff names).symm

theorem Selected.ne_nil (h : Selected config entries names) : names ≠ [] := by
  rintro rfl
  obtain ⟨stem, ext, hLast, -⟩ := h.found.metadata
  cases hLast

/-- The names that lead to a selected file can stand in a path. -/
theorem Selected.isName (h : Selected config entries names)
    (hWell : (FileTree.directory entries).WellFormed) : ∀ name ∈ names, IsName name := by
  obtain ⟨content, hFile⟩ := h.found.isFile
  exact (hWell.at? hFile).2

/-- What the walk finds is a selection. -/
theorem selection_filesAmong (hWell : (FileTree.directory entries).WellFormed)
    (hInput : isStandardInput config.directory = false) :
    Selection config entries (filesAmong config.format config.recursive entries) where
  distinct := nodup_filesAmong hWell
  mem_iff names := by
    rw [mem_filesAmong_iff hWell]
    exact ⟨fun hFound => ⟨hInput, hFound⟩, Selected.found⟩

/-- **Discovery** lists the selected files, where the walk can open what it comes to. -/
theorem exists_selection (hTree : tree.WellFormed)
    (hEntries : tree.entriesAt? workingDirectory config.directory = some entries)
    (hOpened : Opened config entries) :
    ∃ selected, Selection config entries selected ∧ selected.SortedLT ∧
      discover tree workingDirectory config =
        .ok (selected.map (pathBelow config.directory)) := by
  have hDiscover :=
    discover_eq_ok config hEntries ((walkError?_eq_none_iff hTree hEntries).mpr hOpened)
  cases hInput : isStandardInput config.directory with
  -- the walk takes the path for standard input and finds nothing, and nothing counts as selected
  | true =>
    rw [hInput, if_pos rfl] at hDiscover
    refine ⟨[], ⟨.nil, fun names => ?_⟩, List.Pairwise.nil.sortedLT, hDiscover⟩
    refine ⟨fun hMem => absurd hMem List.not_mem_nil, fun h => ?_⟩
    rw [h.walked] at hInput
    cases hInput
  | false =>
    rw [hInput, if_neg Bool.false_ne_true] at hDiscover
    have hListing : Listing config.format config.recursive entries _ :=
      listing_mergeSort (hTree.entriesAt? hEntries)
    refine ⟨_, ⟨hListing.ascending.nodup, fun names => ?_⟩, hListing.ascending, hDiscover⟩
    rw [hListing.mem_iff]
    exact ⟨fun hFound => ⟨hInput, hFound⟩, Selected.found⟩

/-- A selection that ascends is what discovery gives, once every directory can be opened. -/
theorem discover_of_selection {selected : List (List String)} (hTree : tree.WellFormed)
    (hEntries : tree.entriesAt? workingDirectory config.directory = some entries)
    (hOpened : Opened config entries) (h : Selection config entries selected)
    (hAscending : selected.SortedLT) :
    discover tree workingDirectory config = .ok (selected.map (pathBelow config.directory)) := by
  obtain ⟨listed, hListed, hListedAscending, hPaths⟩ := exists_selection hTree hEntries hOpened
  have hSame : selected = listed := hAscending.eq_of_mem_iff hListedAscending fun names =>
    (h.mem_iff names).trans (hListed.mem_iff names).symm
  rw [hPaths, hSame]

/-- Paths are listed in the order of their components. -/
theorem pairwise_components_of_discover {paths : List String} (hTree : tree.WellFormed)
    (h : discover tree workingDirectory config = .ok paths) :
    paths.Pairwise fun path path' => components path < components path' := by
  cases hEntries : tree.entriesAt? workingDirectory config.directory with
  | none =>
    rw [discover_of_no_directory hEntries] at h
    cases h
  | some entries =>
    obtain ⟨selected, hSelection, hAscending, hPaths⟩ :=
      exists_selection hTree hEntries (opened_of_discover hTree hEntries h)
    have hWell := hTree.entriesAt? hEntries
    obtain rfl := Except.ok.inj (h.symm.trans hPaths)
    exact pairwise_components_pathBelow
      (fun names hMem => ((hSelection.mem_iff names).mp hMem).isName hWell) hAscending _

/-- A selected file is found at its path, or else its path is too long. -/
theorem find_of_selected (hTree : tree.WellFormed)
    (hEntries : tree.entriesAt? workingDirectory config.directory = some entries)
    (h : Selected config entries names) {node : FileTree}
    (hNode : (FileTree.directory entries).at? names = some node) :
    tree.find workingDirectory (pathBelow config.directory names) =
      if WithinLimits config.directory names then .ok node else .error .nameTooLong :=
  find_pathBelow hEntries hNode (h.isName (hTree.entriesAt? hEntries)) h.ne_nil

-- ---------------------------------------------------------------------------
-- Records
-- ---------------------------------------------------------------------------

/-- A record but for the file that it is from. -/
def Record.withoutSource (r : Record) : Record := { r with source := none }

/-- A query does not look at where a record was loaded from. -/
theorem Query.collect_map_withoutSource (q : Query) (records : List Record) :
    q.collect (records.map Record.withoutSource) = q.collect records := by
  rw [Query.collect, Query.collect, List.map_map]
  rfl

theorem readText_congr {path path' : String}
    (h : tree'.find workingDirectory' path' = tree.find workingDirectory path) :
    tree'.readText workingDirectory' path' = tree.readText workingDirectory path := by
  rw [FileTree.readText, FileTree.readText, h]

/-- **One file.** Two files with the same text give the same record, but for its source. -/
theorem loadFile_of_readText_eq {schema : Schema} {format : MetadataFormat}
    (format' : MetadataFormat) {path path' : String} {r : Record}
    (hText : tree'.readText workingDirectory' path' = tree.readText workingDirectory path)
    (h : loadFile tree workingDirectory schema format path = .ok r) :
    loadFile tree' workingDirectory' schema format' path' =
      .ok { r with source := some path' } := by
  have hOutcome := loadFile_eq_iff.mp h
  generalize hResult : Except.ok r = result at hOutcome
  cases hOutcome with
  | @flattened text table hRead hToml hSchema =>
    obtain ⟨members, rows, hTable, hFlattening⟩ := flatten_eq_ok_iff.mp hResult.symm
    obtain ⟨hId, hRows, hFields, -⟩ := hFlattening
    have hRecord : flatten table.toJson path' = .ok { r with source := some path' } :=
      flatten_eq_ok_iff.mpr ⟨members, rows, hTable, hId, hRows, hFields, rfl⟩
    rw [← hRecord]
    exact loadFile_eq_iff.mpr (.flattened (hText.trans hRead) hToml hSchema)
  | _ => cases hResult

/-- The record of a file that can be loaded, but for its source. -/
def record? (tree : FileTree) (workingDirectory : List String) (schema : Schema)
    (format : MetadataFormat) (path : String) : Option Record :=
  (loadFile tree workingDirectory schema format path).toOption.map Record.withoutSource

/-- The record of a path is the one loaded from it, without its source. -/
theorem record?_eq_some_iff {schema : Schema} {format : MetadataFormat} {path : String}
    {r : Record} :
    record? tree workingDirectory schema format path = some r ↔
      ∃ loaded, loadFile tree workingDirectory schema format path = .ok loaded ∧
        loaded.withoutSource = r := by
  simp only [record?, Option.map_eq_some_iff, toOption_eq_some_iff]

theorem record?_of_readText_eq {schema : Schema} {format format' : MetadataFormat}
    {path path' : String} {r : Record}
    (hText : tree'.readText workingDirectory' path' = tree.readText workingDirectory path)
    (h : record? tree workingDirectory schema format path = some r) :
    record? tree' workingDirectory' schema format' path' = some r := by
  obtain ⟨loaded, hLoad, rfl⟩ := record?_eq_some_iff.mp h
  exact record?_eq_some_iff.mpr ⟨_, loadFile_of_readText_eq format' hText hLoad, rfl⟩

/-- Files with the same text give the same record, whatever their paths and formats. -/
theorem record?_congr {schema : Schema} {format format' : MetadataFormat} {path path' : String}
    (hText : tree'.readText workingDirectory' path' = tree.readText workingDirectory path) :
    record? tree' workingDirectory' schema format' path' =
      record? tree workingDirectory schema format path :=
  Option.ext fun _ => ⟨record?_of_readText_eq hText.symm, record?_of_readText_eq hText⟩

/-- All files load when none of them has no record. -/
theorem exists_forall₂_loadFile_iff {schema : Schema} {format : MetadataFormat}
    {paths : List String} :
    (∃ records, List.Forall₂
      (fun path r => loadFile tree workingDirectory schema format path = .ok r) paths records) ↔
      none ∉ paths.map (record? tree workingDirectory schema format) := by
  constructor
  · -- a path without record would have to be one that loaded
    rintro ⟨records, hLoads⟩ hNone
    obtain ⟨path, hPath, hFails⟩ := List.mem_map.mp hNone
    obtain ⟨r, -, hLoad⟩ := exists_of_mem_right hLoads.flip hPath
    rw [record?_eq_some_iff.mpr ⟨r, hLoad, rfl⟩] at hFails
    cases hFails
  · intro hNone
    refine exists_forall₂ fun path hPath => ?_
    cases hLoad : loadFile tree workingDirectory schema format path with
    | ok r => exact ⟨r, rfl⟩
    | error e =>
      have hFails : record? tree workingDirectory schema format path = none := by
        rw [record?, hLoad]
        rfl
      exact absurd (List.mem_map.mpr ⟨path, hPath, hFails⟩) hNone

/-- Where all files load, their records are those loaded, without sources. -/
theorem map_record?_eq {schema : Schema} {format : MetadataFormat} {paths : List String}
    {records : List Record}
    (h : List.Forall₂ (fun path r => loadFile tree workingDirectory schema format path = .ok r)
      paths records) :
    paths.map (record? tree workingDirectory schema format) =
      (records.map Record.withoutSource).map some := by
  induction h with
  | nil => rfl
  | @cons path r paths records hLoad _ ih =>
    rw [List.map_cons, ih, record?_eq_some_iff.mpr ⟨r, hLoad, rfl⟩]
    rfl

/-- Each loaded record has the path of its file as its source. -/
theorem map_source_eq {schema : Schema} {format : MetadataFormat} {paths : List String}
    {records : List Record}
    (h : List.Forall₂ (fun path r => loadFile tree workingDirectory schema format path = .ok r)
      paths records) :
    records.map Record.source = paths.map some := by
  induction h with
  | nil => rfl
  | cons hLoad _ ih => rw [List.map_cons, List.map_cons, source_of_loadFile hLoad, ih]

-- ---------------------------------------------------------------------------
-- Runs
-- ---------------------------------------------------------------------------

/-- A load succeeds when its schema, its discovery and each of its files do. -/
theorem loadRecords_eq_ok_iff {records : List Record} :
    loadRecords tree workingDirectory config = .ok records ↔
      ∃ schema paths, loadSchema tree workingDirectory config.schema = .ok schema ∧
        discover tree workingDirectory config = .ok paths ∧
        List.Forall₂
          (fun path r => loadFile tree workingDirectory schema config.format path = .ok r)
          paths records := by
  rw [loadRecords, loadRecordsShowing]
  cases loadSchema tree workingDirectory config.schema with
  | error e => simp
  | ok schema =>
    cases discover tree workingDirectory config with
    | error e => simp
    | ok paths => simp [mapM_eq_ok_iff]

/-- **A run.** It succeeds with what the query makes of the records, if all of them are there. -/
theorem filterRecords_eq_ok_iff {q : Query} {o : Outcome} :
    filterRecords tree workingDirectory config q = .ok o ↔
      ∃ records, loadRecords tree workingDirectory config = .ok records ∧
        q.collect records = o := by
  rw [filterRecords, bind_eq_ok_iff]
  exact exists_congr fun records => and_congr_right fun _ => ⟨Except.ok.inj, congrArg Except.ok⟩

/-- A selected file that cannot be opened makes the run fail. -/
theorem not_exists_ok_of_not_withinLimits (q : Query) (hTree : tree.WellFormed)
    (hEntries : tree.entriesAt? workingDirectory config.directory = some entries)
    (hSelected : Selected config entries names)
    (hLong : ¬ WithinLimits config.directory names) :
    ¬ ∃ o, filterRecords tree workingDirectory config q = .ok o := by
  rintro ⟨o, hOk⟩
  obtain ⟨records, hRecords, -⟩ := filterRecords_eq_ok_iff.mp hOk
  obtain ⟨schema, paths, -, hPaths, hLoads⟩ := loadRecords_eq_ok_iff.mp hRecords
  obtain ⟨selected, hSelection, -, hDiscover⟩ :=
    exists_selection hTree hEntries (opened_of_discover hTree hEntries hPaths)
  obtain rfl := Except.ok.inj (hDiscover.symm.trans hPaths)
  have hListed : names ∈ selected := (hSelection.mem_iff names).mpr hSelected
  obtain ⟨r, -, hLoad⟩ := exists_of_mem_right hLoads.flip (List.mem_map_of_mem hListed)
  obtain ⟨content, hFile⟩ := hSelected.found.isFile
  have hFind := find_of_selected hTree hEntries hSelected hFile
  -- the file is listed all the same, and fails when it is opened
  rw [if_neg hLong] at hFind
  rw [loadFile, readDocument, FileTree.readText, hFind] at hLoad
  cases hLoad

/-- A directory that the walk comes to and cannot open makes the run fail, whatever is in it. -/
theorem not_exists_ok_of_not_opened (q : Query) (hTree : tree.WellFormed)
    (hEntries : tree.entriesAt? workingDirectory config.directory = some entries)
    (hClosed : ¬ Opened config entries) :
    ¬ ∃ o, filterRecords tree workingDirectory config q = .ok o := by
  rintro ⟨o, hOk⟩
  obtain ⟨records, hRecords, -⟩ := filterRecords_eq_ok_iff.mp hOk
  obtain ⟨schema, paths, -, hPaths, -⟩ := loadRecords_eq_ok_iff.mp hRecords
  exact hClosed (opened_of_discover hTree hEntries hPaths)

/-- **What a run reads.** Where schema, paths and texts are the same, so is the run. -/
theorem filterRecords_congr {q : Query}
    (hSchema : loadSchema tree' workingDirectory config.schema =
      loadSchema tree workingDirectory config.schema)
    (hDiscover : discover tree' workingDirectory config = discover tree workingDirectory config)
    (hTexts : ∀ paths, discover tree workingDirectory config = .ok paths → ∀ path ∈ paths,
      tree'.readText workingDirectory path = tree.readText workingDirectory path) :
    filterRecords tree' workingDirectory config q =
      filterRecords tree workingDirectory config q := by
  -- a file gives what its text does, so equal texts make equal loads
  have hLoad : ∀ schema paths, discover tree workingDirectory config = .ok paths →
      paths.mapM (loadFile tree' workingDirectory schema config.format) =
        paths.mapM (loadFile tree workingDirectory schema config.format) := by
    intro schema paths hPaths
    refine mapM_congr fun path hPath => ?_
    rw [loadFile, loadFile, readDocument, readDocument, hTexts paths hPaths path hPath]
  rw [filterRecords, filterRecords, loadRecords, loadRecords, loadRecordsShowing,
    loadRecordsShowing, hSchema, hDiscover]
  cases loadSchema tree workingDirectory config.schema with
  | error e => rfl
  | ok schema =>
    cases hPaths : discover tree workingDirectory config with
    | error e => rfl
    | ok paths =>
      dsimp only
      rw [hLoad schema paths hPaths]

end FoodScan
