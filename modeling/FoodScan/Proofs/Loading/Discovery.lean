import FoodScan.Proofs.Loading.Walk

/-!
# Which files are found

The walk over a directory gathers the files of one entry after the other, as they are listed. What
it gathers is told from the outside by `FoundAt`: names are found exactly if they lead to a file,
the last of them is that of a metadata file, none of them is hidden, and there are not too many.

* `isMetadataName_iff` — the pattern for names and the format of an extension agree on every name;
* `mem_filesAmong_iff`, `nodup_filesAmong` — the walk gathers what is to be found, each file once;
* `Listing` — what is listed is all of them in strictly ascending order, which leaves one list
  (`Listing.unique`), whatever order the walk was in;
* `discover_cases` — there is no directory, or the walk over it ends early, or its files are listed.

`discover_exact` is the result on the paths.
-/

namespace FoodScan

open FileTree (IsName Reordered components)

variable {format : MetadataFormat} {recursive : Bool}

-- ---------------------------------------------------------------------------
-- Names
-- ---------------------------------------------------------------------------

theorem toLower_eq_point_iff {c : Char} : c.toLower = '.' ↔ c = '.' := by
  constructor
  · intro h
    rw [Char.toLower] at h
    split at h
    · rename_i hCapital
      -- a capital becomes a small letter, and these come long after the point
      have hCode : (c.val + 32).toNat = 46 := congrArg (fun d : Char => d.val.toNat) h
      have hA : 65 ≤ c.val.toNat := UInt32.le_iff_toNat_le.mp hCapital.1
      have hZ : c.val.toNat ≤ 90 := UInt32.le_iff_toNat_le.mp hCapital.2
      rw [UInt32.toNat_add] at hCode
      have hSum : (c.val.toNat + 32) % 2 ^ 32 = 46 := hCode
      omega
    · exact h
  · rintro rfl
    rfl

/-- An extension is that of a format exactly if it is its own but for the case of letters. -/
theorem ofExtension?_eq_some_iff {ext : String} :
    MetadataFormat.ofExtension? ext = some format ↔
      ext.toList.map Char.toLower = format.extension.toList := by
  cases format with
  | toml =>
    rw [MetadataFormat.ofExtension?, MetadataFormat.extension, ← String.toList_map,
      String.toList_inj]
    split <;> simp_all [String.toLower]

/-- **Extensions.** The name of a metadata file has a last point, and the part after it is an
extension of the format. -/
theorem isMetadataName_iff {name : String} :
    isMetadataName format name = true ↔
      ∃ stem ext, name = stem ++ "." ++ ext ∧ '.' ∉ ext.toList ∧
        MetadataFormat.ofExtension? ext = some format := by
  have hPoint : ('.' : Char).toLower = '.' := rfl
  have hExtension : '.' ∉ format.extension.toList := by cases format; decide
  simp only [ofExtension?_eq_some_iff]
  rw [isMetadataName, List.isSuffixOf_iff_suffix]
  constructor
  · rintro ⟨before, hBefore⟩
    obtain ⟨stem, tail, hName, -, hTail⟩ := List.map_eq_append_iff.mp hBefore.symm
    obtain ⟨point, ext, rfl, hLower, hExt⟩ := List.map_eq_cons_iff.mp hTail
    -- the point of the pattern stands in the name as it is
    obtain rfl := toLower_eq_point_iff.mp hLower
    refine ⟨String.ofList stem, String.ofList ext, ?_, ?_, ?_⟩
    · apply String.toList_injective
      simpa using hName
    · intro hMem
      rw [← hExt] at hExtension
      rw [String.toList_ofList] at hMem
      exact hExtension (List.mem_map.mpr ⟨'.', hMem, hPoint⟩)
    · rw [String.toList_ofList, hExt]
  · rintro ⟨stem, ext, rfl, -, hExt⟩
    refine ⟨stem.toList.map Char.toLower, ?_⟩
    rw [← hExt]
    simp [hPoint]

-- ---------------------------------------------------------------------------
-- Files
-- ---------------------------------------------------------------------------

/-- What names below a directory must lead to, for a file to be found there. -/
structure FoundAt (format : MetadataFormat) (recursive : Bool) (entries : List (String × FileTree))
    (names : List String) : Prop where
  /-- They lead to a file, not to a directory. -/
  isFile : ∃ content, (FileTree.directory entries).at? names = some (.file content)
  /-- None of them starts with a point. -/
  visible : ∀ name ∈ names, name.toList.head? ≠ some '.'
  /-- The file is in the directory itself, unless subdirectories count. -/
  depth : recursive = true ∨ names.length = 1
  /-- What comes after the last point of its name is an extension of the format. -/
  metadata : ∃ stem ext, names.getLast? = some (stem ++ "." ++ ext) ∧ '.' ∉ ext.toList ∧
    MetadataFormat.ofExtension? ext = some format

/-- Files among entries are those below each entry that is not hidden. -/
theorem filesAmong_eq_flatMap (entries : List (String × FileTree)) :
    filesAmong format recursive entries =
      entries.flatMap fun e =>
        if isHidden e.1 then [] else filesBelow format recursive e.1 e.2 := by
  induction entries with
  | nil => rfl
  | cons e rest ih => rw [filesAmong, ih, List.flatMap_cons]

theorem mem_filesBelow_file {name : String} {content : ByteArray} {names : List String} :
    names ∈ filesBelow format recursive name (.file content) ↔
      isMetadataName format name = true ∧ names = [name] := by
  rw [filesBelow]
  split <;> simp [*]

/-- What is in a directory is found only if the search is recursive. -/
theorem mem_filesBelow_directory {name : String} {entries : List (String × FileTree)}
    {names : List String} :
    names ∈ filesBelow format recursive name (.directory entries) ↔
      recursive = true ∧ ∃ rest ∈ filesAmong format recursive entries, name :: rest = names := by
  rw [filesBelow]
  split
  · rename_i hRecursive
    rw [List.mem_map]
    exact (and_iff_right hRecursive).symm
  · rename_i hFlat
    exact ⟨fun h => absurd h List.not_mem_nil, fun h => absurd h.1 hFlat⟩

/-- What is found below an entry starts with its name. -/
theorem head?_of_mem_filesBelow {name : String} {node : FileTree} {names : List String}
    (h : names ∈ filesBelow format recursive name node) : names.head? = some name := by
  cases node with
  | file content =>
    obtain ⟨-, rfl⟩ := mem_filesBelow_file.mp h
    rfl
  | directory entries =>
    obtain ⟨-, rest, -, rfl⟩ := mem_filesBelow_directory.mp h
    rfl

/-- Where entries have distinct names, a file is found below the entry of its first name. -/
theorem mem_filesAmong_cons_iff {entries : List (String × FileTree)} {name : String}
    {rest : List String} (hDistinct : (entries.map Prod.fst).Nodup) :
    name :: rest ∈ filesAmong format recursive entries ↔
      ∃ node, entries.lookup name = some node ∧ isHidden name = false ∧
        name :: rest ∈ filesBelow format recursive name node := by
  rw [filesAmong_eq_flatMap]
  exact mem_flatMap_visible_iff (filesBelow format recursive) head?_of_mem_filesBelow hDistinct

theorem nil_not_mem_filesAmong {entries : List (String × FileTree)} :
    [] ∉ filesAmong format recursive entries := by
  rw [filesAmong_eq_flatMap]
  exact nil_not_mem_flatMap_visible (filesBelow format recursive) head?_of_mem_filesBelow

/-- A file is found in the directory that lists it. -/
theorem foundAt_cons_file {entries : List (String × FileTree)} {name : String} {content : ByteArray}
    {rest : List String} (hNode : entries.lookup name = some (.file content)) :
    FoundAt format recursive entries (name :: rest) ↔
      isHidden name = false ∧ isMetadataName format name = true ∧ rest = [] := by
  rw [isHidden_eq_false_iff, isMetadataName_iff]
  constructor
  · rintro ⟨⟨found, hFile⟩, hVisible, -, stem, ext, hLast, hMetadata⟩
    rw [FileTree.at?_directory_cons, hNode] at hFile
    cases rest with
    | nil =>
      exact ⟨hVisible name List.mem_cons_self, ⟨stem, ext, Option.some.inj hLast, hMetadata⟩, rfl⟩
    -- there is nothing below a file
    | cons second rest => cases hFile
  · rintro ⟨hVisible, ⟨stem, ext, hName, hMetadata⟩, rfl⟩
    refine ⟨⟨content, ?_⟩, ?_, Or.inr rfl, stem, ext, congrArg some hName, hMetadata⟩
    · rw [FileTree.at?_directory_cons, hNode]
      exact FileTree.at?_nil _
    · simpa using hVisible

/-- What is found in a subdirectory is found from above, if subdirectories count. -/
theorem foundAt_cons_directory {entries sub : List (String × FileTree)} {name : String}
    {rest : List String} (hNode : entries.lookup name = some (.directory sub)) :
    FoundAt format recursive entries (name :: rest) ↔
      isHidden name = false ∧ recursive = true ∧ FoundAt format recursive sub rest := by
  rw [isHidden_eq_false_iff]
  constructor
  · rintro ⟨⟨content, hFile⟩, hVisible, hDepth, stem, ext, hLast, hMetadata⟩
    rw [FileTree.at?_directory_cons, hNode, Option.bind_some] at hFile
    obtain ⟨hName, hRest⟩ := List.forall_mem_cons.mp hVisible
    cases rest with
    | nil =>
      -- the subdirectory itself is no file
      cases (FileTree.at?_nil _).symm.trans hFile
    | cons second rest =>
      have hRecursive : recursive = true := hDepth.resolve_right (by simp)
      rw [List.getLast?_cons_cons] at hLast
      exact ⟨hName, hRecursive, ⟨content, hFile⟩, hRest, Or.inl hRecursive, stem, ext, hLast,
        hMetadata⟩
  · rintro ⟨hName, hRecursive, ⟨content, hFile⟩, hRest, -, stem, ext, hLast, hMetadata⟩
    refine ⟨⟨content, ?_⟩, List.forall_mem_cons.mpr ⟨hName, hRest⟩, Or.inl hRecursive, stem, ext,
      ?_, hMetadata⟩
    · rw [FileTree.at?_directory_cons, hNode, Option.bind_some, hFile]
    · cases rest with
      | nil => cases hLast
      | cons second rest => rw [List.getLast?_cons_cons, hLast]

/-- **The walk** finds what is to be found, by induction on the names that lead to it. -/
theorem mem_filesAmong_iff {entries : List (String × FileTree)}
    (h : (FileTree.directory entries).WellFormed) {names : List String} :
    names ∈ filesAmong format recursive entries ↔ FoundAt format recursive entries names := by
  induction names generalizing entries with
  | nil =>
    constructor
    · exact fun hMem => absurd hMem nil_not_mem_filesAmong
    · rintro ⟨-, -, -, stem, ext, hLast, -⟩
      cases hLast
  | cons name rest ih =>
    cases h with
    | directory hDistinct hNames hNodes =>
      rw [mem_filesAmong_cons_iff hDistinct]
      -- the walk and `FoundAt` look at the entry of the first name, and then at the same thing
      cases hNode : entries.lookup name with
      | none =>
        constructor
        · rintro ⟨node, hNone, -⟩
          cases hNone
        · rintro ⟨⟨content, hFile⟩, -⟩
          rw [FileTree.at?_directory_cons, hNode] at hFile
          cases hFile
      | some node =>
        simp only [Option.some.injEq, exists_eq_left']
        cases node with
        | file content => rw [mem_filesBelow_file, foundAt_cons_file hNode, List.cons_eq_cons]; simp
        | directory sub =>
          have hSub := hNodes _ (Entries.mem_of_lookup_eq_some hNode)
          rw [mem_filesBelow_directory, foundAt_cons_directory hNode, ← ih hSub]
          simp

-- ---------------------------------------------------------------------------
-- Once each
-- ---------------------------------------------------------------------------

/-- Entries with distinct names have no file in common. -/
theorem nodup_filesAmong_of {entries : List (String × FileTree)}
    (hDistinct : (entries.map Prod.fst).Nodup)
    (h : ∀ e ∈ entries, (filesBelow format recursive e.1 e.2).Nodup) :
    (filesAmong format recursive entries).Nodup := by
  rw [filesAmong_eq_flatMap, List.nodup_flatMap]
  constructor
  · intro e he
    split
    · exact List.nodup_nil
    · exact h e he
  · -- the files of two entries are below different names
    have hNames : entries.Pairwise fun e f => e.1 ≠ f.1 := List.pairwise_map.mp hDistinct
    refine hNames.imp fun {e f} hne names he hf => hne ?_
    dsimp only at he hf
    split at he
    · exact absurd he List.not_mem_nil
    · split at hf
      · exact absurd hf List.not_mem_nil
      · exact Option.some.inj ((head?_of_mem_filesBelow he).symm.trans (head?_of_mem_filesBelow hf))

/-- No file is found twice, by induction on the tree. -/
theorem nodup_filesBelow {node : FileTree} (h : node.WellFormed) (name : String) :
    (filesBelow format recursive name node).Nodup := by
  induction h generalizing name with
  | file content =>
    rw [filesBelow]
    split
    · exact List.nodup_singleton _
    · exact List.nodup_nil
  | @directory entries hDistinct _ _ ih =>
    rw [filesBelow]
    split
    · exact (nodup_filesAmong_of hDistinct fun e he => ih e he e.1).map List.cons_injective
    · exact List.nodup_nil

/-- **The walk** comes to no file twice. -/
theorem nodup_filesAmong {entries : List (String × FileTree)}
    (h : (FileTree.directory entries).WellFormed) :
    (filesAmong format recursive entries).Nodup := by
  cases h with
  | directory hDistinct _ hNodes =>
    exact nodup_filesAmong_of hDistinct fun e he => nodup_filesBelow (hNodes e he) e.1

-- ---------------------------------------------------------------------------
-- In order
-- ---------------------------------------------------------------------------

/-- The order of the program is the order of lists of names. -/
theorem comesFirst_iff_le {names names' : List String} :
    comesFirst names names' = true ↔ names ≤ names' := by
  rw [le_iff_eq_or_lt]
  induction names generalizing names' with
  | nil => cases names' <;> simp [comesFirst]
  | cons name rest ih =>
    cases names' with
    | nil => simp [comesFirst]
    | cons name' rest' =>
      rw [comesFirst, List.cons_eq_cons, List.cons_lt_cons_iff]
      -- the first names decide, and only where they are equal do the rest
      rcases lt_trichotomy name name' with hLt | rfl | hGt
      · simp [hLt]
      · simp [ih]
      · simp [hGt.asymm, hGt.ne']

/-- What is listed for a directory: the files that are to be found, in strictly ascending order. -/
structure Listing (format : MetadataFormat) (recursive : Bool) (entries : List (String × FileTree))
    (listed : List (List String)) : Prop where
  ascending : listed.SortedLT
  mem_iff : ∀ names, names ∈ listed ↔ FoundAt format recursive entries names

/-- There is only one listing, since it ascends and its members are told. -/
theorem Listing.unique {entries : List (String × FileTree)} {listed listed' : List (List String)}
    (h : Listing format recursive entries listed) (h' : Listing format recursive entries listed') :
    listed = listed' :=
  h.ascending.eq_of_mem_iff h'.ascending fun names =>
    (h.mem_iff names).trans (h'.mem_iff names).symm

/-- **Sorting** the files that the walk comes to makes the listing. -/
theorem listing_mergeSort {entries : List (String × FileTree)}
    (h : (FileTree.directory entries).WellFormed) :
    Listing format recursive entries
      ((filesAmong format recursive entries).mergeSort comesFirst) := by
  -- the comparison that runs is the order of lists of names, so sorting facts apply to it
  have hOrder : comesFirst = fun names names' => decide (names ≤ names') := by
    funext names names'
    rw [Bool.eq_iff_iff, comesFirst_iff_le, decide_eq_true_eq]
  have hPerm := List.mergeSort_perm (filesAmong format recursive entries) comesFirst
  constructor
  · have hSorted : ((filesAmong format recursive entries).mergeSort comesFirst).SortedLE := by
      rw [hOrder]
      exact List.sortedLE_mergeSort
    exact hSorted.sortedLT_of_nodup (hPerm.nodup_iff.mpr (nodup_filesAmong h))
  · intro names
    rw [hPerm.mem_iff, mem_filesAmong_iff h]

/-- Where files are found does not depend on the order in which directories list their entries. -/
theorem FoundAt.reordered {entries entries' : List (String × FileTree)}
    (h : Reordered (.directory entries) (.directory entries')) {names : List String} :
    FoundAt format recursive entries names ↔ FoundAt format recursive entries' names := by
  constructor
  · rintro ⟨⟨content, hFile⟩, hVisible, hDepth, hMetadata⟩
    exact ⟨⟨content, h.at?_eq_file_iff.mp hFile⟩, hVisible, hDepth, hMetadata⟩
  · rintro ⟨⟨content, hFile⟩, hVisible, hDepth, hMetadata⟩
    exact ⟨⟨content, h.at?_eq_file_iff.mpr hFile⟩, hVisible, hDepth, hMetadata⟩

theorem Listing.reordered {entries entries' : List (String × FileTree)}
    {listed : List (List String)} (h : Reordered (.directory entries) (.directory entries'))
    (hListing : Listing format recursive entries listed) :
    Listing format recursive entries' listed where
  ascending := hListing.ascending
  mem_iff names := (hListing.mem_iff names).trans (FoundAt.reordered h)

/-- Without subdirectories part of the listing is left, in its order. -/
theorem Listing.sublist {entries : List (String × FileTree)} {flat deep : List (List String)}
    (hFlat : Listing format false entries flat) (hDeep : Listing format true entries deep) :
    flat.Sublist deep := by
  have hSubset : flat ⊆ deep := by
    intro names hMem
    obtain ⟨hFile, hVisible, -, hMetadata⟩ := (hFlat.mem_iff names).mp hMem
    exact (hDeep.mem_iff names).mpr ⟨hFile, hVisible, Or.inl rfl, hMetadata⟩
  exact List.sublist_of_subperm_of_sortedLE
    (List.subperm_of_subset hFlat.ascending.nodup hSubset)
    hFlat.ascending.sortedLE hDeep.ascending.sortedLE

-- ---------------------------------------------------------------------------
-- Paths
-- ---------------------------------------------------------------------------

/-- The names below a directory are the last components of a path. -/
theorem components_pathBelow {names : List String} (h : ∀ name ∈ names, IsName name)
    (directory : String) :
    components (pathBelow directory names) = components directory ++ names := by
  rw [pathBelow, FileTree.components_join, FileTree.components_intercalate h]

/-- Different names lead to different paths. -/
theorem pathBelow_injective {directory : String} {names names' : List String}
    (h : ∀ name ∈ names, IsName name) (h' : ∀ name ∈ names', IsName name)
    (hPath : pathBelow directory names = pathBelow directory names') : names = names' := by
  have hComponents := congrArg components hPath
  rw [components_pathBelow h, components_pathBelow h'] at hComponents
  exact List.append_cancel_left hComponents

variable {tree : FileTree} {workingDirectory : List String} {config : Config}
  {entries : List (String × FileTree)}

/-- Without a directory there is nothing to walk over. -/
theorem discover_of_no_directory (h : tree.entriesAt? workingDirectory config.directory = none) :
    discover tree workingDirectory config = .error (.directoryNotFound config.directory) := by
  rw [discover, h]

/-- A walk that ends early fails. -/
theorem discover_of_walkError? {e : LoadError}
    (hEntries : tree.entriesAt? workingDirectory config.directory = some entries)
    (h : walkError? tree workingDirectory config entries = some e) :
    discover tree workingDirectory config = .error e := by
  rw [discover, hEntries]
  dsimp only
  rw [h]

/-- A directory that was walked over is listed, unless it is the standard input. -/
theorem discover_eq_ok (config : Config)
    (hEntries : tree.entriesAt? workingDirectory config.directory = some entries)
    (hWalk : walkError? tree workingDirectory config entries = none) :
    discover tree workingDirectory config =
      .ok (if isStandardInput config.directory then []
        else ((filesAmong config.format config.recursive entries).mergeSort comesFirst).map
          (pathBelow config.directory)) := by
  rw [discover, hEntries]
  dsimp only
  rw [hWalk]
  dsimp only
  split
  · rw [List.mergeSort_nil, List.map_nil]
  · rfl

/-- **The outcomes of discovery.** -/
theorem discover_cases (tree : FileTree) (workingDirectory : List String) (config : Config) :
    (tree.entriesAt? workingDirectory config.directory = none ∧
      discover tree workingDirectory config = .error (.directoryNotFound config.directory)) ∨
    ∃ entries, tree.entriesAt? workingDirectory config.directory = some entries ∧
      ((∃ e, walkError? tree workingDirectory config entries = some e ∧
        discover tree workingDirectory config = .error e) ∨
      walkError? tree workingDirectory config entries = none ∧
        ∃ paths, discover tree workingDirectory config = .ok paths) := by
  cases hEntries : tree.entriesAt? workingDirectory config.directory with
  | none => exact .inl ⟨rfl, discover_of_no_directory hEntries⟩
  | some entries =>
    refine .inr ⟨entries, rfl, ?_⟩
    cases hWalk : walkError? tree workingDirectory config entries with
    | some e => exact .inl ⟨e, rfl, discover_of_walkError? hEntries hWalk⟩
    | none => exact .inr ⟨rfl, _, discover_eq_ok config hEntries hWalk⟩

/-- Paths are listed only where the walk could open everything. -/
theorem opened_of_discover {paths : List String} (hTree : tree.WellFormed)
    (hEntries : tree.entriesAt? workingDirectory config.directory = some entries)
    (h : discover tree workingDirectory config = .ok paths) : Opened config entries := by
  rw [← walkError?_eq_none_iff hTree hEntries]
  cases hWalk : walkError? tree workingDirectory config entries with
  | none => rfl
  | some e =>
    rw [discover_of_walkError? hEntries hWalk] at h
    cases h

/-- The paths ascend by their components, as the names do. -/
theorem pairwise_components_pathBelow {listed : List (List String)}
    (hNames : ∀ names ∈ listed, ∀ name ∈ names, IsName name) (hAscending : listed.SortedLT)
    (directory : String) :
    (listed.map (pathBelow directory)).Pairwise fun path path' =>
      components path < components path' := by
  rw [List.pairwise_map]
  refine hAscending.pairwise.imp_of_mem fun {names names'} hMem hMem' hLt => ?_
  rw [components_pathBelow (hNames names hMem), components_pathBelow (hNames names' hMem')]
  exact List.append_left_lt hLt

/-- The paths of a listing are all different, in the order of their components. -/
theorem Listing.pairwise_components {listed : List (List String)}
    (hWell : (FileTree.directory entries).WellFormed)
    (h : Listing format recursive entries listed) (directory : String) :
    (listed.map (pathBelow directory)).Pairwise fun path path' =>
      components path < components path' := by
  have hNames : ∀ names ∈ listed, ∀ name ∈ names, IsName name := by
    intro names hMem
    obtain ⟨⟨content, hFile⟩, -⟩ := (h.mem_iff names).mp hMem
    exact (hWell.at? hFile).2
  exact pairwise_components_pathBelow hNames h.ascending directory

/-- No directory is listed, whatever its name ends in. -/
theorem Listing.directory_not_mem {listed : List (List String)}
    (hWell : (FileTree.directory entries).WellFormed)
    (h : Listing format recursive entries listed) {names : List String}
    {sub : List (String × FileTree)}
    (hSub : (FileTree.directory entries).at? names = some (.directory sub)) (directory : String) :
    pathBelow directory names ∉ listed.map (pathBelow directory) := by
  intro hMem
  obtain ⟨names', hMem', hPath⟩ := List.mem_map.mp hMem
  obtain ⟨⟨content, hFile⟩, -⟩ := (h.mem_iff names').mp hMem'
  obtain rfl := pathBelow_injective (hWell.at? hFile).2 (hWell.at? hSub).2 hPath
  rw [hFile] at hSub
  cases hSub

/-- What is found below a directory is found from above it. -/
theorem FoundAt.below {names more : List String} {sub : List (String × FileTree)}
    (hSub : (FileTree.directory entries).at? names = some (.directory sub))
    (hVisible : ∀ name ∈ names, name.toList.head? ≠ some '.')
    (h : FoundAt format true sub more) : FoundAt format true entries (names ++ more) := by
  obtain ⟨⟨content, hFile⟩, hVisible', -, stem, ext, hLast, hMetadata⟩ := h
  refine ⟨⟨content, ?_⟩, ?_, Or.inl rfl, stem, ext, ?_, hMetadata⟩
  · rw [FileTree.at?_append, hSub, Option.bind_some, hFile]
  · exact List.forall_mem_append.mpr ⟨hVisible, hVisible'⟩
  · rw [List.getLast?_append, hLast, Option.some_or]

/--
**Discovery is exact.** A directory of a well-formed tree, in which the walk can open what it comes
to, has a list of paths

1. without duplicates, strictly ascending in the order of their components, these compared as texts,
   which is to say by their bytes;
2. that is the same in whatever order directories list their entries;
3. of which those found without subdirectories are a part, in the same order, of those found with
   them;
4. that are the paths of the files that are to be found there, and no others;
5. none of which is that of a directory, whatever its name, though files below it are among them, if
   subdirectories count and no name on the way is hidden.

The last two are about the walk over the directory. A dash is not walked over, since it stands for
the standard input. Without subdirectories the walk opens nothing, so nothing is asked of them
(`Opened`); with them, a path that is too long to open ends the walk (`walkError?_eq`).
-/
theorem discover_exact (tree : FileTree) (hTree : tree.WellFormed) (workingDirectory : List String)
    (config : Config) (entries : List (String × FileTree))
    (hEntries : tree.entriesAt? workingDirectory config.directory = some entries)
    (hOpened : Opened config entries) :
    ∃ paths, discover tree workingDirectory config = .ok paths ∧
      paths.Nodup ∧
      (paths.Pairwise fun path path' => components path < components path') ∧
      (∀ tree', Reordered tree tree' → discover tree' workingDirectory config = .ok paths) ∧
      (∃ flat,
        discover tree workingDirectory { config with recursive := false } = .ok flat ∧
        (Opened { config with recursive := true } entries → ∃ deep,
          discover tree workingDirectory { config with recursive := true } = .ok deep ∧
          flat.Sublist deep)) ∧
      (isStandardInput config.directory = true → paths = []) ∧
      (isStandardInput config.directory = false →
        (∀ path, path ∈ paths ↔ ∃ names, path = pathBelow config.directory names ∧
          FoundAt config.format config.recursive entries names) ∧
        ∀ names sub, (FileTree.directory entries).at? names = some (.directory sub) →
          pathBelow config.directory names ∉ paths ∧
          (config.recursive = true → (∀ name ∈ names, name.toList.head? ≠ some '.') →
            ∀ more, FoundAt config.format true sub more →
              pathBelow config.directory (names ++ more) ∈ paths)) := by
  have hWell : (FileTree.directory entries).WellFormed := hTree.entriesAt? hEntries
  have hListing : ∀ recursive, Listing config.format recursive entries
      ((filesAmong config.format recursive entries).mergeSort comesFirst) :=
    fun _ => listing_mergeSort hWell
  have hOk : ∀ recursive, Opened { config with recursive } entries →
      discover tree workingDirectory { config with recursive } =
        .ok (if isStandardInput config.directory then []
          else ((filesAmong config.format recursive entries).mergeSort comesFirst).map
            (pathBelow config.directory)) := by
    intro recursive hOpened
    have hSame : tree.entriesAt? workingDirectory ({ config with recursive } : Config).directory =
        some entries := hEntries
    exact discover_eq_ok { config with recursive } hSame
      ((walkError?_eq_none_iff hTree hSame).mpr hOpened)
  have hFlat : Opened { config with recursive := false } entries := .of_flat rfl
  have hAscending := (hListing config.recursive).pairwise_components hWell config.directory
  -- the walk over the other tree may be in another order, but the listing is the same
  have hReordered : ∀ tree', Reordered tree tree' →
      discover tree' workingDirectory config = discover tree workingDirectory config := by
    intro tree' h
    obtain ⟨entries', hEntries', h'⟩ := h.entriesAt? hEntries
    have hSame := ((hListing config.recursive).reordered h').unique
      (listing_mergeSort (h'.wellFormed hWell))
    have hWalk := (walkError?_eq_none_iff hTree hEntries).mpr hOpened
    have hWalk' :=
      (walkError?_eq_none_iff (h.wellFormed hTree) hEntries').mpr (hOpened.reordered h')
    rw [discover_eq_ok config hEntries hWalk, discover_eq_ok config hEntries' hWalk', hSame]
  cases hInput : isStandardInput config.directory with
  | true =>
    simp only [hInput, if_true] at hOk
    refine ⟨[], hOk config.recursive hOpened, .nil, .nil, fun tree' h => ?_, ⟨[], hOk false hFlat,
      fun hDeep => ⟨[], hOk true hDeep, .refl _⟩⟩, fun _ => rfl, nofun⟩
    rw [hReordered tree' h]
    exact hOk config.recursive hOpened
  | false =>
    simp only [hInput, Bool.false_eq_true, if_false] at hOk
    refine ⟨_, hOk config.recursive hOpened, ?_, hAscending, fun tree' h => ?_, ⟨_, hOk false hFlat,
      fun hDeep => ⟨_, hOk true hDeep, ?_⟩⟩, nofun,
      fun _ => ⟨fun path => ?_, fun names sub hSub => ⟨?_, ?_⟩⟩⟩
    · exact hAscending.imp fun hLt hSame => absurd (hSame ▸ hLt) (lt_irrefl _)
    · rw [hReordered tree' h]
      exact hOk config.recursive hOpened
    · exact ((hListing false).sublist (hListing true)).map _
    · rw [List.mem_map]
      simp only [(hListing config.recursive).mem_iff, and_comm, eq_comm]
    · exact (hListing config.recursive).directory_not_mem hWell hSub config.directory
    · intro hRecursive hVisible more hMore
      rw [hRecursive]
      exact List.mem_map_of_mem (((hListing true).mem_iff _).mpr (hMore.below hSub hVisible))

/-- A hidden file, capitals in an extension, a directory with the name of a metadata file, and a
name that comes before another as text and after it as a component. -/
theorem discover_exact_of_nested_directories :
    let file : FileTree := .file .empty
    let sub : List (String × FileTree) :=
      [(".d.toml", file), ("b.TOML", file), ("c.toml", .directory [("d.toml", file)])]
    let entries : List (String × FileTree) :=
      [("a", .directory sub), ("a-b.toml", file), ("notes.txt", file)]
    let config : Config := { directory := "/", recursive := true }
    (FileTree.directory entries).WellFormed ∧
      FileTree.entriesAt? (.directory entries) [] config.directory = some entries ∧
      discover (.directory entries.reverse) [] config =
        .ok ["/a/b.TOML", "/a/c.toml/d.toml", "/a-b.toml"] ∧
      (∃ flat, discover (.directory entries) [] { config with recursive := false } = .ok flat ∧
        flat.Sublist ["/a/b.TOML", "/a/c.toml/d.toml", "/a-b.toml"]) ∧
      pathBelow config.directory ["a", "c.toml"] ∉
        ["/a/b.TOML", "/a/c.toml/d.toml", "/a-b.toml"] := by
  intro file sub entries config
  have hTree : (FileTree.directory entries).WellFormed := by decide +kernel
  have hEntries : FileTree.entriesAt? (.directory entries) [] config.directory = some entries :=
    FileTree.entriesAt?_eq_some_iff.mpr ⟨[], by decide +kernel, rfl⟩
  have hInput : isStandardInput config.directory = false := by decide
  have hWalk : filesAmong config.format config.recursive entries =
      [["a", "b.TOML"], ["a", "c.toml", "d.toml"], ["a-b.toml"]] := by decide +kernel
  -- sorting is evaluated by showing that the names are in order already
  have hSorted : (filesAmong config.format config.recursive entries).mergeSort comesFirst =
      [["a", "b.TOML"], ["a", "c.toml", "d.toml"], ["a-b.toml"]] := by
    rw [hWalk]
    exact List.mergeSort_of_pairwise (by decide +kernel)
  have hDirectories : ∀ names ∈ directoriesAmong entries, WithinLimits config.directory names := by
    decide +kernel
  have hOpened : Opened config entries := fun _ _ names hWalked =>
    hDirectories names ((mem_directoriesAmong_iff hTree).mpr hWalked)
  obtain ⟨paths, hPaths, -, -, hOrder, ⟨flat, hFlat, hPart⟩, -, hExact⟩ :=
    discover_exact (.directory entries) hTree [] config entries hEntries hOpened
  obtain ⟨deep, hDeep, hPart⟩ := hPart hOpened
  have hListed : discover (.directory entries) [] config =
      .ok ["/a/b.TOML", "/a/c.toml/d.toml", "/a-b.toml"] := by
    rw [discover_eq_ok config hEntries ((walkError?_eq_none_iff hTree hEntries).mpr hOpened),
      hInput, hSorted]
    decide +kernel
  obtain rfl := Except.ok.inj (hListed.symm.trans hPaths)
  obtain rfl := Except.ok.inj (hListed.symm.trans hDeep)
  have hReverse := Reordered.of_perm hTree entries.reverse_perm.symm
  refine ⟨hTree, hEntries, hOrder _ hReverse, ⟨flat, hFlat, hPart⟩, ?_⟩
  exact ((hExact hInput).2 ["a", "c.toml"] [("d.toml", file)] rfl).1

end FoodScan
