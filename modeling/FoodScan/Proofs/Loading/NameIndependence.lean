import FoodScan.Proofs.Loading.Selection
import FoodScan.Proofs.Query.Merging
import FoodScan.Proofs.Query.Warnings

/-!
# File names do not matter

The names of files decide where they are found and in which order their records come, and that is
all: an outcome has its identifiers sorted, and its warnings come in blocks, one for each record. So
two directories whose selected files have the same contents have the same outcome but for the order
of these blocks (`SameContents.records_perm`), if no path is too long to be opened.

Files that are neither selected nor the schema are not read at all. So they may come, change and go
(`AgreeBut.filterRecords_eq`).

Main result: `file_names_do_not_matter`.
-/

namespace FoodScan

open FileTree (AgreeBut FileChange components)

variable {tree tree' : FileTree} {workingDirectory workingDirectory' place : List String}
  {config config' : Config} {entries entries' : List (String × FileTree)} {q : Query}

-- ---------------------------------------------------------------------------
-- The same contents under other names
-- ---------------------------------------------------------------------------

/-- The selected files of two directories have the same contents, each as often as in the other. -/
def SameContents (config config' : Config) (entries entries' : List (String × FileTree)) : Prop :=
  ∃ selected selected', Selection config entries selected ∧ Selection config' entries' selected' ∧
    (selected'.map (FileTree.directory entries').at?).Perm
      (selected.map (FileTree.directory entries).at?)

/-- Selections of the same contents have the same files, in some order. -/
theorem SameContents.perm {selected selected' : List (List String)}
    (h : SameContents config config' entries entries')
    (hSelection : Selection config entries selected)
    (hSelection' : Selection config' entries' selected') :
    (selected'.map (FileTree.directory entries').at?).Perm
      (selected.map (FileTree.directory entries).at?) := by
  obtain ⟨listed, listed', hListed, hListed', hPerm⟩ := h
  exact ((hSelection'.perm hListed').map _).trans (hPerm.trans ((hListed.perm hSelection).map _))

/-- Lists with the same keys have the same of what depends on the keys. -/
theorem perm_map_of_perm_map {α κ γ : Type} {f f' : α → γ} {k k' : α → κ} {xs xs' : List α}
    (h : (xs'.map k').Perm (xs.map k))
    (hKeys : ∀ x ∈ xs, ∀ x' ∈ xs', k' x' = k x → f' x' = f x) :
    (xs'.map f').Perm (xs.map f) := by
  induction xs generalizing xs' with
  | nil =>
    rw [List.map_nil, List.perm_nil, List.map_eq_nil_iff] at h
    rw [h]
    exact .nil
  | cons x rest ih =>
    obtain ⟨x', hx', hKey⟩ := List.mem_map.mp (h.symm.subset List.mem_cons_self)
    -- the partner of the first item may stand anywhere, and is moved to the front
    obtain ⟨before, after, rfl⟩ := List.append_of_mem hx'
    have hFirst : (before ++ x' :: after).Perm (x' :: (before ++ after)) := List.perm_middle
    have hRest : ((before ++ after).map k').Perm (rest.map k) := by
      have hCons := (hFirst.map k').symm.trans h
      rw [List.map_cons, List.map_cons, hKey] at hCons
      exact hCons.cons_inv
    have hHead : f' x' = f x := hKeys x List.mem_cons_self x' hx' hKey
    have hTail := ih hRest fun y hy y' hy' => hKeys y (List.mem_cons_of_mem _ hy) y'
      (hFirst.mem_iff.mpr (List.mem_cons_of_mem _ hy'))
    refine (hFirst.map f').trans ?_
    rw [List.map_cons, List.map_cons, hHead]
    exact hTail.cons _

section Renaming

variable (hTree : tree.WellFormed) (hTree' : tree'.WellFormed)
  (hEntries : tree.entriesAt? workingDirectory config.directory = some entries)
  (hEntries' : tree'.entriesAt? workingDirectory' config'.directory = some entries')
  (hOpened : Opened config entries) (hOpened' : Opened config' entries')
  (hContents : SameContents config config' entries entries')
  (hLimits : ∀ names, Selected config entries names → WithinLimits config.directory names)
  (hLimits' : ∀ names, Selected config' entries' names → WithinLimits config'.directory names)

include hTree hTree' hEntries hEntries' hOpened hOpened' hContents hLimits hLimits'

/-- The files give the same records but for their sources, or fail to as often. -/
theorem SameContents.record?_perm (schema : Schema) {paths paths' : List String}
    (hPaths : discover tree workingDirectory config = .ok paths)
    (hPaths' : discover tree' workingDirectory' config' = .ok paths') :
    (paths'.map (record? tree' workingDirectory' schema config'.format)).Perm
      (paths.map (record? tree workingDirectory schema config.format)) := by
  obtain ⟨selected, hSelection, -, hDiscover⟩ := exists_selection hTree hEntries hOpened
  obtain ⟨selected', hSelection', -, hDiscover'⟩ := exists_selection hTree' hEntries' hOpened'
  obtain rfl := Except.ok.inj (hDiscover.symm.trans hPaths)
  obtain rfl := Except.ok.inj (hDiscover'.symm.trans hPaths')
  rw [List.map_map, List.map_map]
  refine perm_map_of_perm_map (hContents.perm hSelection hSelection') ?_
  -- files with the same content give the same record, if both paths are short enough to be opened
  intro names hMem names' hMem' hSame
  have hSelected := (hSelection.mem_iff names).mp hMem
  have hSelected' := (hSelection'.mem_iff names').mp hMem'
  obtain ⟨content, hFile⟩ := hSelected.found.isFile
  refine record?_congr (readText_congr ?_)
  rw [find_of_selected hTree hEntries hSelected hFile, if_pos (hLimits names hSelected),
    find_of_selected hTree' hEntries' hSelected' (hSame.trans hFile),
    if_pos (hLimits' names' hSelected')]

/-- Loads of the same contents give the same records but for order and source. -/
theorem SameContents.records_perm {records records' : List Record}
    (hSchema : loadSchema tree' workingDirectory' config'.schema =
      loadSchema tree workingDirectory config.schema)
    (hRecords : loadRecords tree workingDirectory config = .ok records)
    (hRecords' : loadRecords tree' workingDirectory' config' = .ok records') :
    (records'.map Record.withoutSource).Perm (records.map Record.withoutSource) := by
  obtain ⟨schema, paths, hOk, hPaths, hLoads⟩ := loadRecords_eq_ok_iff.mp hRecords
  obtain ⟨schema', paths', hOk', hPaths', hLoads'⟩ := loadRecords_eq_ok_iff.mp hRecords'
  obtain rfl : schema' = schema := Except.ok.inj (hOk'.symm.trans (hSchema.trans hOk))
  -- what the files give is a permutation even with failures in it; here every file gives a record
  have hPerm := hContents.record?_perm hTree hTree' hEntries hEntries' hOpened hOpened' hLimits
    hLimits' schema' hPaths hPaths'
  rw [map_record?_eq hLoads, map_record?_eq hLoads'] at hPerm
  exact (List.map_perm_map_iff (Option.some_injective _)).mp hPerm

/-- **Success.** Both directories can be loaded, or neither. -/
theorem SameContents.exists_ok_iff
    (hSchema : loadSchema tree' workingDirectory' config'.schema =
      loadSchema tree workingDirectory config.schema) :
    (∃ records, loadRecords tree workingDirectory config = .ok records) ↔
      ∃ records', loadRecords tree' workingDirectory' config' = .ok records' := by
  obtain ⟨selected, -, -, hPaths⟩ := exists_selection hTree hEntries hOpened
  obtain ⟨selected', -, -, hPaths'⟩ := exists_selection hTree' hEntries' hOpened'
  cases hOk : loadSchema tree workingDirectory config.schema with
  | error e => simp [loadRecords_eq_ok_iff, hSchema, hOk]
  | ok schema =>
    have hPerm := hContents.record?_perm hTree hTree' hEntries hEntries' hOpened hOpened' hLimits
      hLimits' schema hPaths hPaths'
    simp only [loadRecords_eq_ok_iff, hSchema, hOk, hPaths, hPaths', Except.ok.injEq,
      exists_eq_left', exists_and_left, exists_forall₂_loadFile_iff, hPerm.mem_iff]

end Renaming

/-- Records that agree but for their sources and their order have the same identifiers, and the
same warnings but for the order. -/
theorem Query.collect_of_perm {records records' : List Record} (q : Query)
    (h : (records'.map Record.withoutSource).Perm (records.map Record.withoutSource)) :
    (q.collect records').ids = (q.collect records).ids ∧
      (q.collect records').warnings.Perm (q.collect records).warnings := by
  rw [← q.collect_map_withoutSource records', ← q.collect_map_withoutSource records]
  refine ⟨collect_ids_perm q h, ?_⟩
  rw [collect_warnings_eq_blocks, collect_warnings_eq_blocks q (records.map _)]
  exact h.flatMap_right _

/-- Warnings come record after record, in the order of the paths of the records; and for each record
in the order in which the query asks for what the record lacks. -/
def GroupedByPath (tree : FileTree) (workingDirectory : List String) (config : Config) (q : Query)
    (warnings : List Warning) : Prop :=
  ∃ records paths, loadRecords tree workingDirectory config = .ok records ∧
    discover tree workingDirectory config = .ok paths ∧
    (paths.Pairwise fun path path' => components path < components path') ∧
    records.map Record.source = paths.map some ∧
    warnings = records.flatMap fun r => r.lackingWarnings q.fieldNames

/-- Warnings come grouped by the file that their record was loaded from. -/
theorem groupedByPath {o : Outcome} (hTree : tree.WellFormed)
    (h : filterRecords tree workingDirectory config q = .ok o) :
    GroupedByPath tree workingDirectory config q o.warnings := by
  obtain ⟨records, hRecords, rfl⟩ := filterRecords_eq_ok_iff.mp h
  obtain ⟨schema, paths, -, hPaths, hLoads⟩ := loadRecords_eq_ok_iff.mp hRecords
  exact ⟨records, paths, hRecords, hPaths, pairwise_components_of_discover hTree hPaths,
    map_source_eq hLoads, q.collect_warnings_eq_lacking records⟩

-- ---------------------------------------------------------------------------
-- Other files
-- ---------------------------------------------------------------------------

/-- The place is that of a file which a configuration selects. -/
def SelectsPlace (tree : FileTree) (workingDirectory : List String) (config : Config)
    (place : List String) : Prop :=
  ∃ base entries names, tree.locate workingDirectory config.directory = .ok base ∧
    tree.at? base = some (.directory entries) ∧ Selected config entries names ∧
    place = base ++ names

/-- A name that metadata files do not have is at no place that is selected. -/
theorem not_selectsPlace (names : List String) {name : String}
    (h : isMetadataName config.format name = false) :
    ¬ SelectsPlace tree workingDirectory config (names ++ [name]) := by
  rintro ⟨base, entries, selected, -, -, hSelected, hPlace⟩
  obtain ⟨stem, ext, hLast, hExt⟩ := hSelected.found.metadata
  obtain ⟨before, rfl⟩ := List.getLast?_eq_some_iff.mp hLast
  rw [← List.append_assoc] at hPlace
  obtain ⟨-, hName⟩ := List.append_inj' hPlace rfl
  rw [isMetadataName_iff.mpr ⟨stem, ext, List.singleton_inj.mp hName, hExt⟩] at h
  cases h

/-- The place is that of the file with the schema. -/
def SchemaPlace (tree : FileTree) (workingDirectory : List String) (config : Config)
    (place : List String) : Prop :=
  ∃ path, config.schema = .file path ∧ tree.locate workingDirectory path = .ok place

namespace FileTree.AgreeBut

variable (h : AgreeBut place tree tree')

include h

section Directory

variable {base names : List String} (hTree : tree.WellFormed) (hTree' : tree'.WellFormed)
  (hBase : tree.locate workingDirectory config.directory = .ok base)
  (hBase' : tree'.locate workingDirectory config.directory = .ok base)
  (hDirectory : tree.at? base = some (.directory entries))
  (hDirectory' : tree'.at? base = some (.directory entries'))
  (hOther : ¬ SelectsPlace tree workingDirectory config place)
  (hOther' : ¬ SelectsPlace tree' workingDirectory config place)

include hBase hDirectory hDirectory' hOther

/-- A change elsewhere leaves what is at a selected place. -/
theorem at?_of_selected (hSelected : Selected config entries names) :
    (FileTree.directory entries').at? names = (FileTree.directory entries).at? names := by
  obtain ⟨content, hFile⟩ := hSelected.found.isFile
  have hPlace : base ++ names ≠ place := fun hSame =>
    hOther ⟨base, entries, names, hBase, hDirectory, hSelected, hSame.symm⟩
  have hAt : tree.at? (base ++ names) = some (.file content) := by
    rw [FileTree.at?_append, hDirectory, Option.bind_some, hFile]
  have hAt' := (h.file_iff _ content hPlace).mp hAt
  rw [FileTree.at?_append, hDirectory', Option.bind_some] at hAt'
  rw [hAt', hFile]

/-- A file that is selected in one tree is selected in the other. -/
theorem selected (hSelected : Selected config entries names) : Selected config entries' names := by
  have hSame := h.at?_of_selected hBase hDirectory hDirectory' hOther hSelected
  obtain ⟨hWalked, ⟨content, hFile⟩, hVisible, hDepth, hMetadata⟩ := hSelected
  exact ⟨hWalked, ⟨content, hSame.trans hFile⟩, hVisible, hDepth, hMetadata⟩

include hTree hTree' hBase'

/-- It has the same text in both. -/
theorem readText_of_selected (hSelected : Selected config entries names) :
    tree'.readText workingDirectory (pathBelow config.directory names) =
      tree.readText workingDirectory (pathBelow config.directory names) := by
  have hSelected' := h.selected hBase hDirectory hDirectory' hOther hSelected
  obtain ⟨content, hFile⟩ := hSelected.found.isFile
  have hFile' := (h.at?_of_selected hBase hDirectory hDirectory' hOther hSelected).trans hFile
  have hEntries := FileTree.entriesAt?_eq_some_iff.mpr ⟨base, hBase, hDirectory⟩
  have hEntries' := FileTree.entriesAt?_eq_some_iff.mpr ⟨base, hBase', hDirectory'⟩
  refine readText_congr ?_
  rw [find_of_selected hTree hEntries hSelected hFile,
    find_of_selected hTree' hEntries' hSelected' hFile']

include hOther'

/-- The same files are listed, or the walk ends early at the same directory. -/
theorem discover_eq (hWalk : SameWalk tree tree') :
    discover tree' workingDirectory config = discover tree workingDirectory config := by
  have hEntries := FileTree.entriesAt?_eq_some_iff.mpr ⟨base, hBase, hDirectory⟩
  have hEntries' := FileTree.entriesAt?_eq_some_iff.mpr ⟨base, hBase', hDirectory'⟩
  have hSame := hWalk.walkError?_eq hTree hTree' hBase hBase' hDirectory hDirectory'
  cases hError : walkError? tree workingDirectory config entries with
  | some e =>
    rw [discover_of_walkError? hEntries hError,
      discover_of_walkError? hEntries' (hSame.trans hError)]
  | none =>
    have hOpened := (walkError?_eq_none_iff hTree hEntries).mp hError
    have hOpened' := (walkError?_eq_none_iff hTree' hEntries').mp (hSame.trans hError)
    obtain ⟨selected, hSelection, hAscending, hPaths⟩ := exists_selection hTree hEntries hOpened
    -- a selection of one tree is one of the other, so their sorted paths coincide
    have hSelection' : Selection config entries' selected := by
      refine ⟨hSelection.distinct, fun names => (hSelection.mem_iff names).trans ?_⟩
      exact ⟨h.selected hBase hDirectory hDirectory' hOther,
        h.symm.selected hBase' hDirectory' hDirectory hOther'⟩
    rw [hPaths]
    exact discover_of_selection hTree' hEntries' hOpened' hSelection' hAscending

end Directory

/-- A change elsewhere leaves the schema. -/
theorem loadSchema_eq (hOther : ¬ SchemaPlace tree workingDirectory config place)
    (hOther' : ¬ SchemaPlace tree' workingDirectory config place) :
    loadSchema tree' workingDirectory config.schema =
      loadSchema tree workingDirectory config.schema := by
  cases hSource : config.schema with
  | bundled => rfl
  | file path =>
    have hPlace : tree.locate workingDirectory path ≠ .ok place := fun hPath =>
      hOther ⟨path, hSource, hPath⟩
    have hPlace' : tree'.locate workingDirectory path ≠ .ok place := fun hPath =>
      hOther' ⟨path, hSource, hPath⟩
    by_cases hFile : ∃ content, tree.find workingDirectory path = .ok (.file content)
    · obtain ⟨content, hFile⟩ := hFile
      have hFile' := h.find_file hPlace hFile
      rw [loadSchema, loadSchema, FileTree.hasFile, FileTree.hasFile,
        readText_congr (hFile'.trans hFile.symm), hFile, hFile']
    · -- neither tree has the file
      have hNone : ∀ content, tree.find workingDirectory path ≠ .ok (.file content) :=
        fun content hFound => hFile ⟨content, hFound⟩
      have hNone' : ∀ content, tree'.find workingDirectory path ≠ .ok (.file content) :=
        fun content hFound => hFile ⟨content, h.symm.find_file hPlace' hFound⟩
      rw [loadSchema_eq_iff.mpr (.notFound hNone), loadSchema_eq_iff.mpr (.notFound hNone')]

/-- **Other files** do not matter: what differs is read in neither run. -/
theorem filterRecords_eq (q : Query) (hTree : tree.WellFormed) (hTree' : tree'.WellFormed)
    (hWalk : SameWalk tree tree')
    (hOther : ¬ SelectsPlace tree workingDirectory config place)
    (hOther' : ¬ SelectsPlace tree' workingDirectory config place)
    (hSchema : ¬ SchemaPlace tree workingDirectory config place)
    (hSchema' : ¬ SchemaPlace tree' workingDirectory config place) :
    filterRecords tree' workingDirectory config q =
      filterRecords tree workingDirectory config q := by
  have hSameSchema := h.loadSchema_eq hSchema hSchema'
  cases hEntries : tree.entriesAt? workingDirectory config.directory with
  -- without a directory both loads end in the same error
  | none =>
    have hNone := discover_of_no_directory hEntries
    have hNone' := discover_of_no_directory (h.entriesAt?_eq_none hEntries)
    refine filterRecords_congr hSameSchema (hNone'.trans hNone.symm) fun paths hPaths => ?_
    rw [hNone] at hPaths
    cases hPaths
  | some entries =>
    obtain ⟨base, entries', hBase, hDirectory, hBase', hDirectory'⟩ := h.exists_base hEntries
    have hSamePaths :=
      h.discover_eq hTree hTree' hBase hBase' hDirectory hDirectory' hOther hOther' hWalk
    refine filterRecords_congr hSameSchema hSamePaths fun paths hListed path hPath => ?_
    obtain ⟨selected, hSelection, -, hPaths⟩ :=
      exists_selection hTree hEntries (opened_of_discover hTree hEntries hListed)
    obtain rfl := Except.ok.inj (hPaths.symm.trans hListed)
    obtain ⟨names, hMem, rfl⟩ := List.mem_map.mp hPath
    exact h.readText_of_selected hTree hTree' hBase hBase' hDirectory hDirectory' hOther
      ((hSelection.mem_iff names).mp hMem)

end FileTree.AgreeBut

/--
**File names do not matter.**

1. Two directories whose selected files have the same contents can both be queried or both not, with
   the same schema, if none of these files has a path or a name that is too long to be opened, nor
   has a subdirectory that the walk comes to (`Opened`). If they can, the identifiers are the same,
   and so are the warnings but for their order: those of each directory come record after record, in
   the order of the paths there.
2. If a file is written into a directory that is there, or is removed, and it is neither selected
   nor the file of the schema, before or after, then the outcome stays what it is, success or error.
-/
theorem file_names_do_not_matter :
    (∀ (tree tree' : FileTree) (workingDirectory workingDirectory' : List String)
      (config config' : Config) (entries entries' : List (String × FileTree)) (q : Query),
      tree.WellFormed → tree'.WellFormed →
      tree.entriesAt? workingDirectory config.directory = some entries →
      tree'.entriesAt? workingDirectory' config'.directory = some entries' →
      loadSchema tree' workingDirectory' config'.schema =
        loadSchema tree workingDirectory config.schema →
      SameContents config config' entries entries' →
      Opened config entries → Opened config' entries' →
      (∀ names, Selected config entries names → WithinLimits config.directory names) →
      (∀ names, Selected config' entries' names → WithinLimits config'.directory names) →
        ((∃ o, filterRecords tree workingDirectory config q = .ok o) ↔
          ∃ o', filterRecords tree' workingDirectory' config' q = .ok o') ∧
        ∀ o o', filterRecords tree workingDirectory config q = .ok o →
          filterRecords tree' workingDirectory' config' q = .ok o' →
            o'.ids = o.ids ∧ o'.warnings.Perm o.warnings ∧
            GroupedByPath tree workingDirectory config q o.warnings ∧
            GroupedByPath tree' workingDirectory' config' q o'.warnings) ∧
    (∀ (tree tree' : FileTree) (workingDirectory names : List String) (name : String)
      (entries : List (String × FileTree)) (config : Config) (q : Query),
      tree.WellFormed → tree.at? names = some (.directory entries) →
      (∀ sub, tree.at? (names ++ [name]) ≠ some (.directory sub)) →
      FileChange tree names name tree' →
      ¬ SelectsPlace tree workingDirectory config (names ++ [name]) →
      ¬ SelectsPlace tree' workingDirectory config (names ++ [name]) →
      ¬ SchemaPlace tree workingDirectory config (names ++ [name]) →
      ¬ SchemaPlace tree' workingDirectory config (names ++ [name]) →
        filterRecords tree' workingDirectory config q =
          filterRecords tree workingDirectory config q) := by
  constructor
  · intro tree tree' workingDirectory workingDirectory' config config' entries entries' q hTree
      hTree' hEntries hEntries' hSchema hContents hOpened hOpened' hLimits hLimits'
    constructor
    · have hLoads :=
        hContents.exists_ok_iff hTree hTree' hEntries hEntries' hOpened hOpened' hLimits hLimits'
          hSchema
      -- queries cannot fail, so success is a matter of loading
      simpa [filterRecords_eq_ok_iff] using hLoads
    · intro o o' hOk hOk'
      obtain ⟨records, hRecords, rfl⟩ := filterRecords_eq_ok_iff.mp hOk
      obtain ⟨records', hRecords', rfl⟩ := filterRecords_eq_ok_iff.mp hOk'
      obtain ⟨hIds, hWarnings⟩ := q.collect_of_perm (hContents.records_perm hTree hTree' hEntries
        hEntries' hOpened hOpened' hLimits hLimits' hSchema hRecords hRecords')
      exact ⟨hIds, hWarnings, groupedByPath hTree hOk, groupedByPath hTree' hOk'⟩
  · intro tree tree' workingDirectory names name entries config q hTree hDirectory hFile hChange
      hOther hOther' hSchema hSchema'
    have hWalk := sameWalk_of_fileChange hChange hTree hDirectory hFile
    exact (hChange.agreeBut hDirectory hFile).filterRecords_eq q hTree
      (hChange.wellFormed hTree hDirectory) hWalk hOther hOther' hSchema hSchema'

/-- Other names in other directories put the records in another order, and a file that is not TOML
comes in. -/
theorem file_names_do_not_matter_of_subdirectory :
    let tea : FileTree := .file "gid = 7\nage = 1".toUTF8
    let salt : FileTree := .file "gid = -2".toUTF8
    let flat : List (String × FileTree) := [("a.toml", tea), ("b.toml", salt)]
    let nested : List (String × FileTree) :=
      [("c.TOML", salt), ("sub", .directory [("d.toml", tea)]), ("tea.md", tea)]
    let tree : FileTree := .directory
      [("s.json", .file "{}".toUTF8), ("flat", .directory flat), ("nested", .directory nested)]
    let config (directory : String) : Config :=
      { directory, schema := .file "s.json", recursive := true }
    let q : Query := ⟨.or, [("age", .one (.int 1)), ("colour", .anyOf [])]⟩
    let o : Outcome := ⟨[7], [⟨"colour", 7⟩, ⟨"age", -2⟩, ⟨"colour", -2⟩]⟩
    filterRecords tree [] (config "flat") q = .ok o ∧
      (∃ o', filterRecords tree [] (config "nested") q = .ok o' ∧ o'.ids = o.ids ∧
        o'.warnings.Perm o.warnings) ∧
      ∃ tree', tree.writeFile ["flat"] "notes.txt" "gid = 7".toUTF8 = .ok tree' ∧
        filterRecords tree' [] (config "flat") q = .ok o := by
  intro tea salt flat nested tree config q o
  have hTree : tree.WellFormed := by decide +kernel
  have hFlat : tree.entriesAt? [] "flat" = some flat := rfl
  have hNested : tree.entriesAt? [] "nested" = some nested := rfl
  have hWalk : filesAmong .toml true flat = [["a.toml"], ["b.toml"]] := by decide +kernel
  have hWalk' : filesAmong .toml true nested = [["c.TOML"], ["sub", "d.toml"]] := by decide +kernel
  have hSelection : Selection (config "flat") flat [["a.toml"], ["b.toml"]] :=
    hWalk ▸ selection_filesAmong (hTree.entriesAt? hFlat) (by decide)
  have hSelection' : Selection (config "nested") nested [["c.TOML"], ["sub", "d.toml"]] :=
    hWalk' ▸ selection_filesAmong (hTree.entriesAt? hNested) (by decide)
  have hContents : SameContents (config "flat") (config "nested") flat nested :=
    ⟨_, _, hSelection, hSelection', .swap _ _ _⟩
  have hDirectories : ∀ names ∈ directoriesAmong nested, WithinLimits "nested" names := by
    decide +kernel
  have hOpened : Opened (config "flat") flat := fun _ _ names hWalked =>
    absurd ((mem_directoriesAmong_iff (hTree.entriesAt? hFlat)).mpr hWalked) List.not_mem_nil
  have hOpened' : Opened (config "nested") nested := fun _ _ names hWalked =>
    hDirectories names ((mem_directoriesAmong_iff (hTree.entriesAt? hNested)).mpr hWalked)
  have hLimits : ∀ names, Selected (config "flat") flat names → WithinLimits "flat" names := by
    intro names hSelected
    have hShort : ∀ names ∈ [["a.toml"], ["b.toml"]], WithinLimits "flat" names := by
      decide +kernel
    exact hShort names ((hSelection.mem_iff names).mpr hSelected)
  have hLimits' : ∀ names, Selected (config "nested") nested names →
      WithinLimits "nested" names := by
    intro names hSelected
    have hShort : ∀ names ∈ [["c.TOML"], ["sub", "d.toml"]], WithinLimits "nested" names := by
      decide +kernel
    exact hShort names ((hSelection'.mem_iff names).mpr hSelected)
  -- the outcome of the one directory is computed, and what follows is known without loading again
  have hListed : [["a.toml"], ["b.toml"]].map (pathBelow "flat") =
      ["flat/a.toml", "flat/b.toml"] := by decide +kernel
  have hPaths : discover tree [] (config "flat") = .ok ["flat/a.toml", "flat/b.toml"] :=
    hListed ▸ discover_of_selection hTree hFlat hOpened hSelection
      (List.Pairwise.sortedLT (by decide +kernel))
  have hTea : loadFile tree [] (.keywords []) .toml "flat/a.toml" =
      .ok ⟨7, ⟨[("age", [.scalar (.int 1)]), ("gid", [.scalar (.int 7)])], by decide +kernel⟩,
        some "flat/a.toml"⟩ := by
    decide +kernel
  have hSalt : loadFile tree [] (.keywords []) .toml "flat/b.toml" =
      .ok ⟨-2, ⟨[("gid", [.scalar (.int (-2))])], by decide +kernel⟩, some "flat/b.toml"⟩ := by
    decide +kernel
  have hOutcome : filterRecords tree [] (config "flat") q = .ok o :=
    filterRecords_eq_ok_iff.mpr ⟨_, loadRecords_eq_ok_iff.mpr
      ⟨_, _, rfl, hPaths, .cons hTea (.cons hSalt .nil)⟩, by decide +kernel⟩
  obtain ⟨hNames, hOthers⟩ := file_names_do_not_matter
  obtain ⟨hBoth, hAlike⟩ := hNames tree tree [] [] (config "flat") (config "nested") flat nested q
    hTree hTree hFlat hNested rfl hContents hOpened hOpened' hLimits hLimits'
  obtain ⟨o', hOutcome'⟩ := hBoth.mp ⟨o, hOutcome⟩
  obtain ⟨hIds, hWarnings, -⟩ := hAlike o o' hOutcome hOutcome'
  obtain ⟨tree', hWritten⟩ :
      ∃ tree', tree.writeFile ["flat"] "notes.txt" "gid = 7".toUTF8 = .ok tree' := ⟨_, rfl⟩
  have hNotMetadata : isMetadataName .toml "notes.txt" = false := by decide +kernel
  have hNotSchema : ∀ tree, tree.locate [] "s.json" = .ok ["s.json"] →
      ¬ SchemaPlace tree [] (config "flat") ["flat", "notes.txt"] := by
    rintro tree hSchema ⟨path, hSource, hPlace⟩
    cases hSource
    rw [hSchema] at hPlace
    exact absurd (Except.ok.inj hPlace) (by decide)
  have hChanged := hOthers tree tree' [] ["flat"] "notes.txt" flat (config "flat") q hTree rfl
    (fun sub hSub => by cases hSub) (.written (by decide +kernel) hWritten)
    (not_selectsPlace ["flat"] hNotMetadata)
    (not_selectsPlace ["flat"] hNotMetadata)
    (hNotSchema tree rfl)
    (hNotSchema tree' (by cases hWritten; rfl))
  exact ⟨hOutcome, ⟨o', hOutcome', hIds, hWarnings⟩, tree', hWritten, hChanged.trans hOutcome⟩

/-- Names do matter where paths are long: slashes behind a directory lead nowhere, but one name
still fits behind them, and the other one does not. So does an empty directory, if the walk opens
it. -/
theorem file_names_matter_in_long_paths :
    let file : FileTree := .file "gid = 1".toUTF8
    let near : List (String × FileTree) := [("a.toml", file)]
    let far : List (String × FileTree) := [("banana.toml", file)]
    let deep : List (String × FileTree) := [("a.toml", file), ("subdirectory", .directory [])]
    let tree : FileTree := .directory [("s.json", .file "{}".toUTF8),
      ("d", .directory near), ("e", .directory far), ("f", .directory deep)]
    let config (directory : String) (recursive : Bool) : Config :=
      { directory := directory ++ slashes 4085, schema := .file "s.json", recursive }
    let q : Query := ⟨.and, []⟩
    tree.WellFormed ∧
      (∀ recursive, tree.entriesAt? [] (config "d" recursive).directory = some near ∧
        ∃ o, filterRecords tree [] (config "d" recursive) q = .ok o) ∧
      (tree.entriesAt? [] (config "e" false).directory = some far ∧
        SameContents (config "d" false) (config "e" false) near far ∧
        ¬ ∃ o, filterRecords tree [] (config "e" false) q = .ok o) ∧
      tree.entriesAt? [] (config "f" true).directory = some deep ∧
      SameContents (config "d" true) (config "f" true) near deep ∧
      ¬ ∃ o, filterRecords tree [] (config "f" true) q = .ok o := by
  intro file near far deep tree config q
  have hTree : tree.WellFormed := by decide +kernel
  -- slashes at the end of the path use up its length without leading anywhere
  have hD : ∀ recursive, tree.entriesAt? [] (config "d" recursive).directory = some near :=
    fun _ => entriesAt?_slashes (by decide) rfl (by decide)
  have hE : tree.entriesAt? [] (config "e" false).directory = some far :=
    entriesAt?_slashes (by decide) rfl (by decide)
  have hF : tree.entriesAt? [] (config "f" true).directory = some deep :=
    entriesAt?_slashes (by decide) rfl (by decide)
  have hInput : ∀ directory recursive, directory ∈ ["d", "e", "f"] →
      isStandardInput (config directory recursive).directory = false := by
    simp [config, isStandardInput]
  have hSize : ∀ directory recursive name,
      (pathBelow (config directory recursive).directory [name]).utf8ByteSize =
        directory.utf8ByteSize + 4085 + name.utf8ByteSize := by
    intro directory recursive name
    show (pathBelow (directory ++ slashes (4084 + 1)) [name]).utf8ByteSize = _
    rw [pathBelow_slashes, String.utf8ByteSize_append, String.utf8ByteSize_append,
      utf8ByteSize_slashes]
  have hNearWalk : ∀ recursive, filesAmong .toml recursive near = [["a.toml"]] := by
    decide +kernel
  have hFarWalk : filesAmong .toml false far = [["banana.toml"]] := by decide +kernel
  have hDeepWalk : filesAmong .toml true deep = [["a.toml"]] := by decide +kernel
  have hNear : ∀ recursive, Selection (config "d" recursive) near [["a.toml"]] := fun recursive =>
    hNearWalk recursive ▸
      selection_filesAmong (hTree.entriesAt? (hD recursive)) (hInput "d" recursive (by decide))
  have hFar : Selection (config "e" false) far [["banana.toml"]] :=
    hFarWalk ▸ selection_filesAmong (hTree.entriesAt? hE) (hInput "e" false (by decide))
  have hDeep : Selection (config "f" true) deep [["a.toml"]] :=
    hDeepWalk ▸ selection_filesAmong (hTree.entriesAt? hF) (hInput "f" true (by decide))
  -- the longer name of the file no longer fits into a path
  have hFarSelected := (hFar.mem_iff ["banana.toml"]).mp (by decide)
  have hFarLimits : ¬ WithinLimits (config "e" false).directory ["banana.toml"] := by
    intro h
    have hLong := h.path
    rw [hSize] at hLong
    exact absurd hLong (by decide)
  -- and neither does the name of an empty directory
  have hClosed : ¬ Opened (config "f" true) deep := by
    intro h
    have hWalked : WalkedAt deep ["subdirectory"] := ⟨⟨[], rfl⟩, by decide, by decide⟩
    have hLong := (h rfl (hInput "f" true (by decide)) _ hWalked).path
    rw [hSize] at hLong
    exact absurd hLong (by decide)
  refine ⟨hTree, fun recursive => ⟨hD recursive, ?_⟩,
    ⟨hE, ⟨_, _, hNear false, hFar, .refl _⟩,
      not_exists_ok_of_not_withinLimits q hTree hE hFarSelected hFarLimits⟩,
    hF, ⟨_, _, hNear true, hDeep, .refl _⟩, not_exists_ok_of_not_opened q hTree hF hClosed⟩
  have hNearSelected := ((hNear recursive).mem_iff ["a.toml"]).mp (by decide)
  have hNearLimits : WithinLimits (config "d" recursive).directory ["a.toml"] :=
    ⟨by rw [hSize]; decide, by decide⟩
  have hOpened : Opened (config "d" recursive) near := fun _ _ names hWalked =>
    absurd ((mem_directoriesAmong_iff (hTree.entriesAt? (hD recursive))).mpr hWalked)
      List.not_mem_nil
  have hPaths := discover_of_selection hTree (hD recursive) hOpened (hNear recursive)
    (List.Pairwise.sortedLT (by decide))
  have hShort : loadFile tree [] (.keywords []) .toml "d/a.toml" =
      .ok ⟨1, ⟨[("gid", [.scalar (.int 1)])], by decide +kernel⟩, some "d/a.toml"⟩ := by
    decide +kernel
  have hFind : tree.find [] (pathBelow (config "d" recursive).directory ["a.toml"]) =
      tree.find [] "d/a.toml" := by
    rw [find_of_selected hTree (hD recursive) hNearSelected rfl, if_pos hNearLimits]
    rfl
  have hLoad := loadFile_of_readText_eq .toml (readText_congr hFind) hShort
  exact ⟨_, filterRecords_eq_ok_iff.mpr ⟨_, loadRecords_eq_ok_iff.mpr
    ⟨_, _, rfl, hPaths, .cons hLoad .nil⟩, rfl⟩⟩

end FoodScan
