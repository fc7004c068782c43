import FoodScan.Proofs.FileTree.Change

/-!
# What the walk opens

The walk over a directory opens every directory that it comes to. Which ones these are is told from
the outside by `WalkedAt`, as `FoundAt` tells which files are found: names that lead to a directory,
none of them hidden. The walk ends early exactly if the path of one of them, or a name in it, is too
long (`walkError?_eq_none_iff`, for `Opened`), and the error is about the first one that it comes to
(`walkError?_eq`).

A file that is written or removed makes no difference to the directories, nor to their order
(`sameWalk_of_fileChange`).
-/

namespace FoodScan

open FileTree (IsName Reordered FileChange)

variable {config : Config} {entries entries' : List (String × FileTree)} {name : String}
  {names rest : List String}

-- ---------------------------------------------------------------------------
-- Entry after entry
-- ---------------------------------------------------------------------------

theorem isHidden_eq_false_iff : isHidden name = false ↔ name.toList.head? ≠ some '.' := by
  rw [isHidden, beq_eq_false_iff_ne]

/-- What is gathered entry after entry, with the name of the entry in front, is found in the entry
of its first name. -/
theorem mem_flatMap_visible_iff (below : String → FileTree → List (List String))
    (hHead : ∀ {name node names}, names ∈ below name node → names.head? = some name)
    (hDistinct : (entries.map Prod.fst).Nodup) :
    name :: rest ∈ (entries.flatMap fun e => if isHidden e.1 then [] else below e.1 e.2) ↔
      ∃ node, entries.lookup name = some node ∧ isHidden name = false ∧
        name :: rest ∈ below name node := by
  rw [List.mem_flatMap]
  constructor
  · rintro ⟨e, he, hMem⟩
    cases hHidden : isHidden e.1 with
    | true => simp [hHidden] at hMem
    | false =>
      rw [hHidden] at hMem
      -- what is found below an entry starts with its name, so this is the entry asked for
      obtain rfl := Option.some.inj (hHead hMem)
      exact ⟨e.2, (Entries.lookup_eq_some_iff_of_nodup hDistinct).mpr he, hHidden, hMem⟩
  · rintro ⟨node, hNode, hHidden, hMem⟩
    refine ⟨(name, node), Entries.mem_of_lookup_eq_some hNode, ?_⟩
    rw [hHidden]
    exact hMem

/-- Nothing is gathered without a name. -/
theorem nil_not_mem_flatMap_visible (below : String → FileTree → List (List String))
    (hHead : ∀ {name node names}, names ∈ below name node → names.head? = some name) :
    [] ∉ entries.flatMap fun e => if isHidden e.1 then [] else below e.1 e.2 := by
  rw [List.mem_flatMap]
  rintro ⟨e, -, hMem⟩
  split at hMem
  · exact absurd hMem List.not_mem_nil
  · exact nomatch hHead hMem

-- ---------------------------------------------------------------------------
-- Directories
-- ---------------------------------------------------------------------------

/-- The walk comes to the directory that names lead to: it is below the one that is walked over, and
no name on the way is hidden. -/
structure WalkedAt (entries : List (String × FileTree)) (names : List String) : Prop where
  isDirectory : ∃ sub, (FileTree.directory entries).at? names = some (.directory sub)
  below : names ≠ []
  visible : ∀ name ∈ names, name.toList.head? ≠ some '.'

/-- Directories among entries are those below each entry that is not hidden. -/
theorem directoriesAmong_eq_flatMap (entries : List (String × FileTree)) :
    directoriesAmong entries =
      entries.flatMap fun e => if isHidden e.1 then [] else directoriesBelow e.1 e.2 := by
  induction entries with
  | nil => rfl
  | cons e rest ih => rw [directoriesAmong, ih, List.flatMap_cons]

theorem head?_of_mem_directoriesBelow {node : FileTree}
    (h : names ∈ directoriesBelow name node) : names.head? = some name := by
  cases node with
  | file content => exact absurd h List.not_mem_nil
  | directory entries =>
    rw [directoriesBelow] at h
    rcases List.mem_cons.mp h with rfl | h
    · rfl
    · obtain ⟨rest, -, rfl⟩ := List.mem_map.mp h
      rfl

/-- A directory is found itself, and with it the directories among its entries. -/
theorem cons_mem_directoriesBelow_directory {sub : List (String × FileTree)} :
    name :: rest ∈ directoriesBelow name (.directory sub) ↔
      rest = [] ∨ rest ∈ directoriesAmong sub := by
  rw [directoriesBelow, List.mem_cons, List.mem_map]
  simp

/-- Of the directories of an entry, one is the entry itself, and the others are below it. -/
theorem walkedAt_cons_iff :
    WalkedAt entries (name :: rest) ↔
      isHidden name = false ∧ ∃ sub, entries.lookup name = some (.directory sub) ∧
        (rest = [] ∨ WalkedAt sub rest) := by
  rw [isHidden_eq_false_iff]
  constructor
  · rintro ⟨⟨deep, hDeep⟩, -, hVisible⟩
    obtain ⟨hName, hRest⟩ := List.forall_mem_cons.mp hVisible
    rw [FileTree.at?_directory_cons] at hDeep
    obtain ⟨node, hNode, hDeep⟩ := Option.bind_eq_some_iff.mp hDeep
    cases node with
    | file content => cases rest <;> cases hDeep
    | directory sub =>
      refine ⟨hName, sub, hNode, ?_⟩
      -- the names may end here, or lead on inside a directory that is walked itself
      by_cases hEnd : rest = []
      · exact .inl hEnd
      · exact .inr ⟨⟨deep, hDeep⟩, hEnd, hRest⟩
  · rintro ⟨hName, sub, hSub, hRest⟩
    have hAt : (FileTree.directory entries).at? (name :: rest) =
        (FileTree.directory sub).at? rest := by
      rw [FileTree.at?_directory_cons, hSub, Option.bind_some]
    rcases hRest with rfl | ⟨hDeep, -, hVisible⟩
    · exact ⟨⟨sub, hAt⟩, List.cons_ne_nil _ _, List.forall_mem_singleton.mpr hName⟩
    · exact ⟨hAt ▸ hDeep, List.cons_ne_nil _ _, List.forall_mem_cons.mpr ⟨hName, hVisible⟩⟩

/-- **The walk** comes to the directories that it is to come to, by induction on the names that lead
to them. -/
theorem mem_directoriesAmong_iff (h : (FileTree.directory entries).WellFormed) :
    names ∈ directoriesAmong entries ↔ WalkedAt entries names := by
  induction names generalizing entries with
  | nil =>
    rw [directoriesAmong_eq_flatMap]
    exact iff_of_false (nil_not_mem_flatMap_visible directoriesBelow head?_of_mem_directoriesBelow)
      fun hWalked => hWalked.below rfl
  | cons name rest ih =>
    -- the induction is on the names; distinct names in each directory make the entry found the one
    -- looked up
    cases h with
    | directory hDistinct hNames hNodes =>
      rw [directoriesAmong_eq_flatMap,
        mem_flatMap_visible_iff directoriesBelow head?_of_mem_directoriesBelow hDistinct,
        walkedAt_cons_iff]
      constructor
      · rintro ⟨node, hNode, hHidden, hMem⟩
        cases node with
        | file content => exact absurd hMem List.not_mem_nil
        | directory sub =>
          have hSub := hNodes _ (Entries.mem_of_lookup_eq_some hNode)
          exact ⟨hHidden, sub, hNode,
            (cons_mem_directoriesBelow_directory.mp hMem).imp_right (ih hSub).mp⟩
      · rintro ⟨hHidden, sub, hSub, hRest⟩
        have hWell := hNodes _ (Entries.mem_of_lookup_eq_some hSub)
        exact ⟨_, hSub, hHidden,
          cons_mem_directoriesBelow_directory.mpr (hRest.imp_right (ih hWell).mpr)⟩

/-- In another order, the walk comes to the same directories. -/
theorem WalkedAt.reordered (h : Reordered (.directory entries) (.directory entries'))
    (hWalked : WalkedAt entries' names) : WalkedAt entries names := by
  obtain ⟨⟨sub', hSub'⟩, hBelow, hVisible⟩ := hWalked
  refine ⟨?_, hBelow, hVisible⟩
  have hAt := h.at? names
  rw [hSub'] at hAt
  generalize (FileTree.directory entries).at? names = node at hAt ⊢
  cases hAt with
  | some hNode =>
    cases hNode with
    | directory hNames hNodes => exact ⟨_, rfl⟩

-- ---------------------------------------------------------------------------
-- Opening them
-- ---------------------------------------------------------------------------

/-- The walk over the directory of a configuration can open what it comes to. It opens nothing
unless subdirectories count, and nothing of the standard input. -/
def Opened (config : Config) (entries : List (String × FileTree)) : Prop :=
  config.recursive = true → isStandardInput config.directory = false →
    ∀ names, WalkedAt entries names → WithinLimits config.directory names

/-- A search that is not recursive opens no directory but its own. -/
theorem Opened.of_flat (h : config.recursive = false) : Opened config entries := fun hRecursive =>
  nomatch h.symm.trans hRecursive

/-- Whether all directories open does not depend on the order of their entries. -/
theorem Opened.reordered (h : Reordered (.directory entries) (.directory entries'))
    (hOpened : Opened config entries) : Opened config entries' :=
  fun hRecursive hInput names hWalked => hOpened hRecursive hInput names (hWalked.reordered h)

variable {tree tree' : FileTree} {workingDirectory : List String}

/-- Searching for the first value is searching for the first place that has one. -/
theorem findSome?_eq_map_find? {α β : Type} {f : α → Option β} {p : α → Bool} {g : α → β}
    {xs : List α} (h : ∀ x ∈ xs, f x = if p x then some (g x) else none) :
    xs.findSome? f = (xs.find? p).map g := by
  induction xs with
  | nil => rfl
  | cons x rest ih =>
    obtain ⟨hHere, hRest⟩ := List.forall_mem_cons.mp h
    rw [List.findSome?_cons, List.find?_cons, hHere]
    cases p x with
    | true => rfl
    | false => exact ih hRest

/-- A walk that ends early has come to a directory at whose path none is found. -/
theorem walkError?_eq_some {e : LoadError}
    (h : walkError? tree workingDirectory config entries = some e) :
    config.recursive = true ∧ ∃ names ∈ directoriesAmong entries, ∃ fault,
      tree.find workingDirectory (pathBelow config.directory names) = .error fault ∧
      e = .walk config.directory (pathBelow config.directory names) fault := by
  rw [walkError?] at h
  split at h
  · rename_i hWalks
    -- the first error of the walk belongs to some directory that it comes to
    obtain ⟨names, hMem, hFault⟩ := List.exists_of_findSome?_eq_some h
    refine ⟨((Bool.and_eq_true _ _).mp hWalks).1, names, hMem, ?_⟩
    dsimp only at hFault
    cases hFind : tree.find workingDirectory (pathBelow config.directory names) with
    | ok node =>
      rw [hFind] at hFault
      cases hFault
    | error fault =>
      rw [hFind] at hFault
      exact ⟨fault, rfl, (Option.some.inj hFault).symm⟩
  · cases h

section Walking

variable (hTree : tree.WellFormed)
  (hEntries : tree.entriesAt? workingDirectory config.directory = some entries)
include hTree hEntries

/-- **The walk ends early** at the first directory that it comes to whose path or name is too
long. -/
theorem walkError?_eq :
    walkError? tree workingDirectory config entries =
      if config.recursive && !isStandardInput config.directory then
        ((directoriesAmong entries).find? fun names =>
          !decide (WithinLimits config.directory names)).map fun names =>
            .walk config.directory (pathBelow config.directory names) .nameTooLong
      else none := by
  have hWell := hTree.entriesAt? hEntries
  rw [walkError?]
  refine if_congr Iff.rfl (findSome?_eq_map_find? fun names hMem => ?_) rfl
  obtain ⟨⟨sub, hSub⟩, hBelow, -⟩ := (mem_directoriesAmong_iff hWell).mp hMem
  dsimp only
  rw [find_pathBelow hEntries hSub (hWell.at? hSub).2 hBelow]
  by_cases hLimits : WithinLimits config.directory names <;> simp [hLimits]

/-- The walk goes without error exactly if it opens every directory that it meets. -/
theorem walkError?_eq_none_iff :
    walkError? tree workingDirectory config entries = none ↔ Opened config entries := by
  have hWell := hTree.entriesAt? hEntries
  rw [walkError?_eq hTree hEntries, Opened]
  split
  · rename_i hWalks
    obtain ⟨hRecursive, hInput⟩ := (Bool.and_eq_true _ _).mp hWalks
    rw [Bool.not_eq_true'] at hInput
    simp only [hRecursive, hInput, forall_const, Option.map_eq_none_iff, List.find?_eq_none,
      mem_directoriesAmong_iff hWell, Bool.not_eq_true', decide_eq_false_iff_not, not_not]
  · rename_i hFlat
    refine iff_of_true rfl fun hRecursive hInput => ?_
    rw [hRecursive, hInput] at hFlat
    exact absurd rfl hFlat

end Walking

-- ---------------------------------------------------------------------------
-- Changes of files
-- ---------------------------------------------------------------------------

/-- Walks over a directory of both trees come to the same directories, in the same order. -/
def SameWalk (tree tree' : FileTree) : Prop :=
  ∀ base entries entries', tree.at? base = some (.directory entries) →
    tree'.at? base = some (.directory entries') →
    directoriesAmong entries' = directoriesAmong entries

/-- A node that is put among entries makes no difference to the walk if there are as many
directories in it as in what it replaces. -/
theorem directoriesAmong_putEntry {node : FileTree}
    (h : directoriesBelow name node = (entries.lookup name).elim [] (directoriesBelow name)) :
    directoriesAmong (FileTree.putEntry name node entries) = directoriesAmong entries := by
  induction entries with
  | nil =>
    rw [List.lookup_nil, Option.elim_none] at h
    rw [FileTree.putEntry, directoriesAmong.eq_2, h, ite_self, List.nil_append]
  | cons e rest ih =>
    rw [FileTree.lookup_cons_eq] at h
    rw [FileTree.putEntry]
    by_cases hName : e.1 = name
    · rw [if_pos hName.symm, Option.elim_some] at h
      rw [if_pos hName, directoriesAmong, directoriesAmong, h, hName]
    · rw [if_neg (Ne.symm hName)] at h
      rw [if_neg hName, directoriesAmong, directoriesAmong, ih h]

/-- An entry that is no directory may be taken away. -/
theorem directoriesAmong_removeName (hDistinct : (entries.map Prod.fst).Nodup)
    (h : ∀ sub, entries.lookup name ≠ some (.directory sub)) :
    directoriesAmong (entries.filter fun e => e.1 ≠ name) = directoriesAmong entries := by
  -- no entry of that name has a directory below, so leaving it out changes nothing
  have hNone : ∀ e ∈ entries, e.1 = name → directoriesBelow e.1 e.2 = [] := by
    intro e he hName
    have hNode := (Entries.lookup_eq_some_iff_of_nodup hDistinct).mpr he
    cases hKind : e.2 with
    | file content => rfl
    | directory sub => exact absurd (hName ▸ hKind ▸ hNode) (h sub)
  clear hDistinct h
  induction entries with
  | nil => rfl
  | cons e rest ih =>
    obtain ⟨hHere, hRest⟩ := List.forall_mem_cons.mp hNone
    rw [List.filter_cons, directoriesAmong]
    by_cases hName : e.1 = name
    · rw [if_neg (by simpa using hName), ih hRest, hHere hName, ite_self, List.nil_append]
    · rw [if_pos (decide_eq_true hName), directoriesAmong, ih hRest]

/-- Only directories are changed, and they stay directories. -/
theorem directory_of_changeDirectory
    {change : List (String × FileTree) → List (String × FileTree)}
    (h : FileTree.changeDirectory change names tree = .ok tree') :
    ∃ entries entries', tree = .directory entries ∧ tree' = .directory entries' := by
  cases tree with
  | file content => cases names <;> cases h
  | directory entries =>
    cases names with
    | nil =>
      cases h
      exact ⟨_, _, rfl, rfl⟩
    | cons first rest =>
      obtain ⟨child, -, h⟩ := bind_eq_ok_iff.mp h
      cases h
      exact ⟨_, _, rfl, rfl⟩

/-- What a change makes of the entries of one directory, walks from above it come to as well. -/
theorem sameWalk_changeDirectory
    {change : List (String × FileTree) → List (String × FileTree)}
    (hDirectory : tree.at? names = some (.directory entries))
    (hHere : directoriesAmong (change entries) = directoriesAmong entries)
    (hOthers : ∀ other, other ≠ name → (change entries).lookup other = entries.lookup other)
    (hName : ∀ sub, entries.lookup name ≠ some (.directory sub))
    (h : FileTree.changeDirectory change names tree = .ok tree') : SameWalk tree tree' := by
  induction names generalizing tree tree' with
  -- at the place of the change every other entry is the same, and the changed one is no directory
  | nil =>
    rw [FileTree.at?_nil] at hDirectory
    cases hDirectory
    cases h
    intro base found found' hFound hFound'
    cases base with
    | nil =>
      cases hFound
      cases hFound'
      exact hHere
    | cons other rest =>
      rw [FileTree.at?_directory_cons] at hFound hFound'
      by_cases hOther : other = name
      · obtain ⟨node, hNode, hRest⟩ := Option.bind_eq_some_iff.mp hFound
        rw [hOther] at hNode
        cases node with
        | file content => cases rest <;> cases hRest
        | directory sub => exact absurd hNode (hName sub)
      · rw [hOthers other hOther, hFound] at hFound'
        cases hFound'
        rfl
  | cons first rest ih =>
    obtain ⟨outer, child, rfl, hChild, hRest⟩ := FileTree.at?_cons_eq_some_iff.mp hDirectory
    obtain ⟨child', hChanged, rfl⟩ := FileTree.changeDirectory_cons_of_lookup hChild h
    -- above it the child has changed, but not the directories in it
    have hBelow := ih hRest hChanged
    intro base found found' hFound hFound'
    cases base with
    | nil =>
      cases hFound
      cases hFound'
      refine directoriesAmong_putEntry ?_
      obtain ⟨sub, sub', rfl, rfl⟩ := directory_of_changeDirectory hChanged
      have hSub := hBelow [] sub sub' (FileTree.at?_nil _) (FileTree.at?_nil _)
      rw [hChild, Option.elim_some, directoriesBelow, directoriesBelow, hSub]
    | cons other rest' =>
      rw [FileTree.at?_directory_cons] at hFound hFound'
      rw [FileTree.lookup_putEntry] at hFound'
      by_cases hOther : other = first
      · rw [hOther, hChild, Option.bind_some] at hFound
        rw [if_pos hOther, Option.bind_some] at hFound'
        exact hBelow rest' found found' hFound hFound'
      · rw [if_neg hOther, hFound] at hFound'
        cases hFound'
        rfl

/-- **A file is written or removed.** The walk comes to the same directories. -/
theorem sameWalk_of_fileChange (h : FileChange tree names name tree') (hTree : tree.WellFormed)
    (hDirectory : tree.at? names = some (.directory entries))
    (hFile : ∀ sub, tree.at? (names ++ [name]) ≠ some (.directory sub)) : SameWalk tree tree' := by
  rw [FileTree.at?_append_singleton hDirectory] at hFile
  cases h with
  | written hName h =>
    refine sameWalk_changeDirectory hDirectory (directoriesAmong_putEntry ?_)
      (fun other hOther => ?_) hFile h
    · -- what is replaced is a file or nothing, which is as many directories as in the new file
      cases hNode : entries.lookup name with
      | none => rfl
      | some node =>
        cases node with
        | file content => rfl
        | directory sub => exact absurd hNode (hFile sub)
    · rw [FileTree.lookup_putEntry, if_neg hOther]
  | removed h =>
    cases (hTree.at? hDirectory).1 with
    | directory hDistinct _ _ =>
      refine sameWalk_changeDirectory hDirectory (directoriesAmong_removeName hDistinct hFile)
        (fun other hOther => ?_) hFile h
      rw [FileTree.lookup_removeName, if_neg hOther]

/-- So it ends early in both trees, with the same error, or in neither. -/
theorem SameWalk.walkError?_eq {base : List String} (h : SameWalk tree tree')
    (hTree : tree.WellFormed) (hTree' : tree'.WellFormed)
    (hBase : tree.locate workingDirectory config.directory = .ok base)
    (hBase' : tree'.locate workingDirectory config.directory = .ok base)
    (hDirectory : tree.at? base = some (.directory entries))
    (hDirectory' : tree'.at? base = some (.directory entries')) :
    walkError? tree' workingDirectory config entries' =
      walkError? tree workingDirectory config entries := by
  have hEntries := FileTree.entriesAt?_eq_some_iff.mpr ⟨base, hBase, hDirectory⟩
  have hEntries' := FileTree.entriesAt?_eq_some_iff.mpr ⟨base, hBase', hDirectory'⟩
  rw [FoodScan.walkError?_eq hTree hEntries, FoodScan.walkError?_eq hTree' hEntries',
    h base entries entries' hDirectory hDirectory']

end FoodScan
