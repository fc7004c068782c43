import FoodScan.Proofs.FileTree.Change

/-!
# Directories are made one at a time

A change of the entries of one directory is seen in that directory and nowhere else
(`withinDirectory_eq_ok`); so making a directory and writing a file leave everything as it is that
does not lie on the way to them (`SameOffTheWay`).

* `makeDirectories_cases` — a directory is made with all that is missing on the way to it, unless a
  file stands on that way. Then nothing at all is made: below the first directory that is missing
  there is nothing, so a file that is in the way is met before anything is missing.
* `replaceFile_eq_ok`, `replaceFile_eq_error` — a file is written in a directory that is there,
  unless its place is a directory.

The first is about paths that only lead down, by names that are not too long (`Short`). A name that
is too long is only met after the directories above it have been made, and these stay; so they do
where a path leads up again and meets a file behind that.
-/

namespace FoodScan.FileTree

variable {tree tree' tree'' : FileTree} {names place : List String} {name : String}
  {entries : List (String × FileTree)} {content : ByteArray}

-- ---------------------------------------------------------------------------
-- What is off the way
-- ---------------------------------------------------------------------------

/-- The trees have the same nodes except on the way to a place. -/
def SameOffTheWay (place : List String) (tree tree' : FileTree) : Prop :=
  ∀ other, ¬ other <+: place → tree'.at? other = tree.at? other

theorem SameOffTheWay.refl (place : List String) (tree : FileTree) :
    SameOffTheWay place tree tree := fun _ _ => rfl

/-- Two changes on the way to a place are one. -/
theorem SameOffTheWay.trans (h : SameOffTheWay place tree tree')
    (h' : SameOffTheWay place tree' tree'') : SameOffTheWay place tree tree'' :=
  fun other hOther => (h' other hOther).trans (h other hOther)

/-- What is on the way to a place is on the way to all below it. -/
theorem SameOffTheWay.mono (h : SameOffTheWay names tree tree') (hPrefix : names <+: place) :
    SameOffTheWay place tree tree' :=
  fun other hOther => h other fun hWay => hOther (hWay.trans hPrefix)

theorem not_append_isPrefix {more : List String} (hMore : more ≠ []) :
    ¬ names ++ more <+: names := by
  intro h
  have hLength := h.length_le
  rw [List.length_append] at hLength
  exact hMore (List.length_eq_zero_iff.mp (by omega))

/-- What is above a node is a directory. -/
theorem exists_directory_of_at?_append {more : List String} {node : FileTree} (hMore : more ≠ [])
    (h : tree.at? (names ++ more) = some node) :
    ∃ entries, tree.at? names = some (.directory entries) := by
  rw [at?_append] at h
  obtain ⟨above, hAbove, hNode⟩ := Option.bind_eq_some_iff.mp h
  cases above with
  | file content =>
    obtain ⟨first, rest, rfl⟩ := List.exists_cons_of_ne_nil hMore
    cases hNode
  | directory entries => exact ⟨entries, hAbove⟩

-- ---------------------------------------------------------------------------
-- One directory
-- ---------------------------------------------------------------------------

/-- None of the names has more bytes than the system takes. -/
def Short (names : List String) : Prop := ∀ name ∈ names, name.utf8ByteSize ≤ nameLimit

theorem short_append_singleton_iff : Short (names ++ [name]) ↔
    Short names ∧ name.utf8ByteSize ≤ nameLimit := by
  rw [Short, List.forall_mem_append, List.forall_mem_singleton, Short]

/-- What is looked up by a name that is not too long is its entry. -/
theorem lookUp_eq_ok {found : Option FileTree} (h : lookUp entries name = .ok found) :
    entries.lookup name = found := by
  rw [lookUp] at h
  split at h
  · cases h
  · exact Except.ok.inj h

/-- A name that is looked up is not too long. -/
theorem size_of_lookUp {found : Option FileTree} (h : lookUp entries name = .ok found) :
    name.utf8ByteSize ≤ nameLimit := by
  rw [lookUp] at h
  split at h
  · cases h
  · omega

theorem lookUp_of_short (h : name.utf8ByteSize ≤ nameLimit) :
    lookUp entries name = .ok (entries.lookup name) := if_neg (Nat.not_lt.mpr h)

section Within

variable {change : List (String × FileTree) → Except FileFault (List (String × FileTree))}

/-- **One directory.** Its entries are changed, and nothing that is neither above nor below it. -/
theorem withinDirectory_eq_ok (h : withinDirectory change names tree = .ok tree') :
    ∃ entries entries', tree.at? names = some (.directory entries) ∧
      change entries = .ok entries' ∧
      (∀ rest, tree'.at? (names ++ rest) = (directory entries').at? rest) ∧
      ∀ other, ¬ names <+: other → ¬ other <+: names → tree'.at? other = tree.at? other := by
  -- the change is made at the end of the names and copied back up, one entry at a time
  induction names generalizing tree tree' with
  | nil =>
    cases tree with
    | file content => cases h
    | directory entries =>
      obtain ⟨entries', hChange, h⟩ := bind_eq_ok_iff.mp h
      cases h
      exact ⟨entries, entries', rfl, hChange, fun _ => rfl,
        fun other hOther => absurd List.nil_prefix hOther⟩
  | cons first rest ih =>
    cases tree with
    | file content => cases h
    | directory outer =>
      rw [withinDirectory] at h
      cases hChild : outer.lookup first with
      | none =>
        rw [hChild] at h
        cases h
      | some child =>
        rw [hChild] at h
        obtain ⟨child', hWithin, h⟩ := bind_eq_ok_iff.mp h
        cases h
        obtain ⟨entries, entries', hEntries, hChange, hBelow, hOff⟩ := ih hWithin
        refine ⟨entries, entries', ?_, hChange, fun more => ?_, fun other hAbove hBelow => ?_⟩
        · rw [at?_directory_cons, hChild]
          exact hEntries
        · rw [List.cons_append, at?_directory_cons, lookup_putEntry, if_pos rfl]
          exact hBelow more
        · match other with
          | [] => exact absurd List.nil_prefix hBelow
          | second :: more =>
            rw [at?_directory_cons, at?_directory_cons, lookup_putEntry]
            by_cases hSame : second = first
            · subst hSame
              rw [if_pos rfl, hChild]
              rw [List.prefix_cons_inj] at hAbove hBelow
              exact hOff more hAbove hBelow
            · rw [if_neg hSame]

/-- A change fails by itself, or a file stands on the way, or the directory is missing. -/
theorem withinDirectory_eq_error {fault : FileFault}
    (h : withinDirectory change names tree = .error fault) :
    (∃ entries, tree.at? names = some (.directory entries) ∧ change entries = .error fault) ∨
      (fault = .notDirectory ∧
        ∃ other content, other <+: names ∧ tree.at? other = some (.file content)) ∨
      (fault = .notFound ∧ tree.at? names = none) := by
  induction names generalizing tree with
  | nil =>
    cases tree with
    | file content =>
      cases h
      exact .inr (.inl ⟨rfl, [], content, List.nil_prefix, rfl⟩)
    | directory entries =>
      rcases bind_eq_error_iff.mp h with hChange | ⟨_, -, h⟩
      · exact .inl ⟨entries, rfl, hChange⟩
      · cases h
  | cons first rest ih =>
    cases tree with
    | file content =>
      cases h
      exact .inr (.inl ⟨rfl, [], content, List.nil_prefix, rfl⟩)
    | directory outer =>
      rw [withinDirectory] at h
      simp only [at?_directory_cons]
      cases hChild : outer.lookup first with
      | none =>
        rw [hChild] at h
        cases h
        exact .inr (.inr ⟨rfl, rfl⟩)
      | some child =>
        rw [hChild] at h
        have hWithin : withinDirectory change rest child = .error fault := by
          rcases bind_eq_error_iff.mp h with hWithin | ⟨_, -, h⟩
          · exact hWithin
          · cases h
        -- a fault below is the same fault here, and only the place of a file in the way is named
        -- from further up
        rcases ih hWithin with hHere | ⟨hFault, other, content, hWay, hFile⟩ | hMissing
        · exact .inl hHere
        · refine .inr (.inl ⟨hFault, first :: other, content, ?_, ?_⟩)
          · exact (List.prefix_cons_inj first).mpr hWay
          · rw [at?_directory_cons, hChild]
            exact hFile
        · exact .inr (.inr hMissing)

/-- A node without nodes below it. -/
def IsLeaf (node : FileTree) : Prop := ∀ first rest, node.at? (first :: rest) = none

theorem isLeaf_file (content : ByteArray) : IsLeaf (.file content) := fun _ _ => rfl

theorem isLeaf_emptyDirectory : IsLeaf (.directory []) := fun _ _ => rfl

/-- A leaf that is put in the place of a leaf, or of nothing, is seen nowhere else. -/
theorem sameOffTheWay_of_putEntry {node : FileTree} (hNode : IsLeaf node)
    (hBefore : ∀ old, entries.lookup name = some old → IsLeaf old)
    (hEntries : tree.at? names = some (.directory entries))
    (hBelow : ∀ rest, tree'.at? (names ++ rest) =
      (directory (putEntry name node entries)).at? rest)
    (hOff : ∀ other, ¬ names <+: other → ¬ other <+: names → tree'.at? other = tree.at? other) :
    SameOffTheWay (names ++ [name]) tree tree' := by
  intro other hOther
  by_cases hPrefix : names <+: other
  · obtain ⟨rest, rfl⟩ := hPrefix
    rw [hBelow, at?_append, hEntries, Option.bind_some]
    match rest with
    | [] => exact absurd (by simp) hOther
    | second :: more =>
      rw [at?_directory_cons, at?_directory_cons, lookup_putEntry]
      -- below the entry itself both the old node and the new are leaves, so nothing is there before
      -- or after
      by_cases hSame : second = name
      · subst hSame
        match more with
        | [] => exact absurd List.prefix_rfl hOther
        | third :: more =>
          rw [if_pos rfl, Option.bind_some, hNode]
          cases hOld : entries.lookup second with
          | none => rfl
          | some old => exact (hBefore old hOld third more).symm
      · rw [if_neg hSame]
  · exact hOff other hPrefix fun h => hOther (h.trans (List.prefix_append _ _))

end Within

/-- **One directory is made** where there was nothing. -/
theorem addDirectory_eq_ok (h : tree.addDirectory names name = .ok tree') :
    (∃ entries, tree.at? names = some (.directory entries)) ∧
      tree.at? (names ++ [name]) = none ∧
      tree'.at? (names ++ [name]) = some (.directory []) ∧
      SameOffTheWay (names ++ [name]) tree tree' := by
  obtain ⟨entries, entries', hEntries, hChange, hBelow, hOff⟩ := withinDirectory_eq_ok h
  obtain ⟨found, hFound, hChange⟩ := bind_eq_ok_iff.mp hChange
  split at hChange
  · cases hChange
  · rename_i hFree
    cases hChange
    -- adding asks for the entry first, so there was none
    have hNone : entries.lookup name = none := by
      rw [lookUp_eq_ok hFound]
      exact Option.not_isSome_iff_eq_none.mp hFree
    refine ⟨⟨entries, hEntries⟩, ?_, ?_, ?_⟩
    · rw [at?_append_singleton hEntries, hNone]
    · rw [hBelow, at?_directory_cons, lookup_putEntry, if_pos rfl]
      rfl
    · refine sameOffTheWay_of_putEntry isLeaf_emptyDirectory (fun old hOld => ?_) hEntries hBelow
        hOff
      rw [hNone] at hOld
      cases hOld

/-- A directory is only made by a name that is not too long. -/
theorem size_of_addDirectory (h : tree.addDirectory names name = .ok tree') :
    name.utf8ByteSize ≤ nameLimit := by
  obtain ⟨entries, entries', -, hChange, -⟩ := withinDirectory_eq_ok h
  obtain ⟨found, hFound, -⟩ := bind_eq_ok_iff.mp hChange
  exact size_of_lookUp hFound

theorem size_of_replaceFile (h : tree.replaceFile names name content = .ok tree') :
    name.utf8ByteSize ≤ nameLimit := by
  obtain ⟨entries, entries', -, hChange, -⟩ := withinDirectory_eq_ok h
  obtain ⟨found, hFound, -⟩ := bind_eq_ok_iff.mp hChange
  exact size_of_lookUp hFound

/-- A directory is not made where there is something, or where there is no directory above. -/
theorem addDirectory_eq_error {fault : FileFault} (hName : name.utf8ByteSize ≤ nameLimit)
    (h : tree.addDirectory names name = .error fault) :
    (fault = .exists ∧ (tree.at? (names ++ [name])).isSome = true) ∨
      (fault = .notDirectory ∧
        ∃ other content, other <+: names ∧ tree.at? other = some (.file content)) ∨
      (fault = .notFound ∧ tree.at? names = none) := by
  -- the directory is there and the name is taken, or the way to it fails
  rcases withinDirectory_eq_error h with ⟨entries, hEntries, hChange⟩ | hRest
  · rw [lookUp_of_short hName, ok_bind] at hChange
    split at hChange
    · rename_i hSome
      cases hChange
      rw [← at?_append_singleton hEntries] at hSome
      exact .inl ⟨rfl, hSome⟩
    · cases hChange
  · exact .inr hRest

/-- **A file is written** in the place of a file, or of nothing. -/
theorem replaceFile_eq_ok (h : tree.replaceFile names name content = .ok tree') :
    (∃ entries, tree.at? names = some (.directory entries)) ∧
      (∀ sub, tree.at? (names ++ [name]) ≠ some (.directory sub)) ∧
      tree'.at? (names ++ [name]) = some (.file content) ∧
      SameOffTheWay (names ++ [name]) tree tree' := by
  obtain ⟨entries, entries', hEntries, hChange, hBelow, hOff⟩ := withinDirectory_eq_ok h
  obtain ⟨found, hFound, hChange⟩ := bind_eq_ok_iff.mp hChange
  have hPlace := lookUp_eq_ok hFound
  split at hChange
  · cases hChange
  · rename_i hNoDirectory
    cases hChange
    refine ⟨⟨entries, hEntries⟩, fun sub hSub => ?_, ?_, ?_⟩
    · rw [at?_append_singleton hEntries, hPlace] at hSub
      exact hNoDirectory sub hSub
    · rw [hBelow, at?_directory_cons, lookup_putEntry, if_pos rfl]
      rfl
    · refine sameOffTheWay_of_putEntry (isLeaf_file content) (fun old hOld => ?_) hEntries hBelow
        hOff
      -- a file that was there is a leaf as well, and a directory would have been refused
      cases old with
      | file before => exact isLeaf_file before
      | directory inner => exact absurd (hPlace.symm.trans hOld) (hNoDirectory inner)

/-- In a directory that is there, a file is written or its place is a directory. -/
theorem replaceFile_eq_error {fault : FileFault} (hName : name.utf8ByteSize ≤ nameLimit)
    (hEntries : tree.at? names = some (.directory entries))
    (h : tree.replaceFile names name content = .error fault) :
    fault = .isDirectory ∧ ∃ inner, tree.at? (names ++ [name]) = some (.directory inner) := by
  rcases withinDirectory_eq_error h with
    ⟨entries', hEntries', hChange⟩ | ⟨-, other, inFile, hWay, hFile⟩ | ⟨-, hMissing⟩
  · rw [lookUp_of_short hName, ok_bind] at hChange
    split at hChange
    · rename_i inner hInner
      cases hChange
      rw [← at?_append_singleton hEntries'] at hInner
      exact ⟨rfl, inner, hInner⟩
    · cases hChange
  · -- a file on the way has no directory below it
    obtain ⟨rest, rfl⟩ := hWay
    by_cases hRest : rest = []
    · rw [hRest, List.append_nil, hFile] at hEntries
      cases hEntries
    · obtain ⟨above, hAbove⟩ := exists_directory_of_at?_append hRest hEntries
      rw [hFile] at hAbove
      cases hAbove
  · rw [hMissing] at hEntries
    cases hEntries

-- ---------------------------------------------------------------------------
-- All directories on the way
-- ---------------------------------------------------------------------------

/-- A file stands on the way to a directory, or in its place. -/
def Blocked (tree : FileTree) (names : List String) : Prop :=
  ∃ other content, other <+: names ∧ tree.at? other = some (.file content)

/-- A directory is there, where no file stood on the way to it, and nothing else is changed. -/
structure DirectoryMade (names : List String) (tree tree' : FileTree) : Prop where
  directory : ∃ entries, tree'.at? names = some (.directory entries)
  free : ¬ tree.Blocked names
  others : SameOffTheWay names tree tree'

/-- No file is in the way of a directory that is there. -/
theorem not_blocked_of_directory (h : tree.at? names = some (.directory entries)) :
    ¬ tree.Blocked names := by
  rintro ⟨other, inFile, ⟨rest, rfl⟩, hFile⟩
  by_cases hRest : rest = []
  · rw [hRest, List.append_nil, hFile] at h
    cases h
  · obtain ⟨above, hAbove⟩ := exists_directory_of_at?_append hRest h
    rw [hFile] at hAbove
    cases hAbove

/-- A directory that is there need not be made. -/
theorem DirectoryMade.of_directory (h : tree.at? names = some (.directory entries)) :
    DirectoryMade names tree tree :=
  ⟨⟨entries, h⟩, not_blocked_of_directory h, .refl names tree⟩

/-- Nothing is in the way of a directory that is missing below one that has none in its way. -/
theorem not_blocked_append_singleton (hFree : ¬ tree.Blocked names)
    (hMissing : tree.at? (names ++ [name]) = none) : ¬ tree.Blocked (names ++ [name]) := by
  rintro ⟨other, inFile, hWay, hFile⟩
  rcases List.prefix_concat_iff.mp hWay with rfl | hAbove
  · rw [hMissing] at hFile
    cases hFile
  · exact hFree ⟨other, inFile, hAbove, hFile⟩

/-- What is in the way is in the way of all below. -/
theorem Blocked.append (h : tree.Blocked names) (more : List String) :
    tree.Blocked (names ++ more) := by
  obtain ⟨other, inFile, hWay, hFile⟩ := h
  exact ⟨other, inFile, hWay.trans (List.prefix_append _ _), hFile⟩

/-- The names in a path that never leads up lead down. -/
theorem leadsDown_namesAmong {parts : List String} (hUp : ".." ∉ namesAmong parts) :
    ∀ name ∈ namesAmong parts, LeadsDown name := by
  intro name hName
  have hPart := of_decide_eq_true (List.mem_filter.mp hName).2
  exact ⟨hPart.1, hPart.2, fun hSame => hUp (hSame ▸ hName)⟩

section Down

variable {start : List String}

/-- **A way down** is walked to its end, or it comes to where something is missing, or to a file
that is in the way. -/
theorem walk_cases (tree : FileTree) (start : List String) (hNames : ∀ name ∈ names, LeadsDown name)
    (hShort : Short names) :
    (tree.walk start names = .ok (start ++ names) ∧
      (names = [] ∨ (tree.at? (start ++ names)).isSome = true)) ∨
    (tree.walk start names = .error .notFound ∧ tree.at? (start ++ names) = none) ∨
    tree.walk start names = .error .notDirectory ∧ tree.Blocked (start ++ names) := by
  induction names generalizing start with
  | nil => exact .inl ⟨by rw [walk, List.append_nil], .inl rfl⟩
  | cons name rest ih =>
    obtain ⟨hName, hRest⟩ := List.forall_mem_cons.mp hNames
    obtain ⟨hSize, hShort⟩ := List.forall_mem_cons.mp hShort
    -- the induction is on the names with the start moving down; each way of being stuck is met at
    -- the place where the walk stands
    cases hHere : tree.at? start with
    | none =>
      refine .inr (.inl ⟨by rw [walk, hHere], ?_⟩)
      rw [at?_append, hHere, Option.bind_none]
    | some node =>
      cases node with
      | file content =>
        exact .inr (.inr ⟨by rw [walk, hHere], start, content, List.prefix_append _ _, hHere⟩)
      | directory entries =>
        have hEntry := at?_append_singleton hHere name
        rw [walk_cons_of_leadsDown hHere hName, if_neg (Nat.not_lt.mpr hSize),
          List.append_cons start name rest]
        cases hLookup : entries.lookup name with
        | none =>
          refine .inr (.inl ⟨rfl, ?_⟩)
          rw [at?_append, hEntry, hLookup, Option.bind_none]
        | some child =>
          rw [if_pos Option.isSome_some]
          rcases ih (start ++ [name]) hRest hShort with ⟨hWalk, hThere⟩ | hRest
          · refine .inl ⟨hWalk, .inr ?_⟩
            rcases hThere with rfl | hThere
            · rw [List.append_nil, hEntry, hLookup, Option.isSome_some]
            · exact hThere
          · exact .inr hRest

/-- A way down leads to a directory exactly if there is one in its place. -/
theorem leadsToDirectory_iff (hNames : ∀ name ∈ names, LeadsDown name) (hShort : Short names) :
    tree.leadsToDirectory start names = true ↔
      ∃ entries, tree.at? (start ++ names) = some (.directory entries) := by
  rw [leadsToDirectory]
  rcases walk_cases tree start hNames hShort with ⟨hWalk, -⟩ | ⟨hWalk, hNone⟩ | ⟨hWalk, hBlocked⟩
  · rw [hWalk]
    dsimp only
    cases tree.at? (start ++ names) with
    | none => simp
    | some node => cases node <;> simp [isDirectory]
  · simp [hWalk, hNone]
  · rw [hWalk]
    refine iff_of_false Bool.false_ne_true ?_
    rintro ⟨entries, hEntries⟩
    exact not_blocked_of_directory hEntries hBlocked

/-- A part that leads down is made in the directory that the parts before it lead to. -/
theorem addDirectoryAt_of_leadsDown (tree : FileTree) (start names : List String)
    (hName : LeadsDown name) :
    tree.addDirectoryAt start names name =
      (tree.walk start names >>= fun place => tree.addDirectory place name) := by
  rw [addDirectoryAt, if_neg hName.notParent]

variable (hNames : ∀ part ∈ names ++ [name], LeadsDown part) (hShort : Short (names ++ [name]))
include hNames hShort

/-- A directory that is there is not made again. -/
theorem ensureDirectory_of_directory
    (h : tree.at? (start ++ (names ++ [name])) = some (.directory entries)) :
    tree.ensureDirectory start names name = (tree, none) := by
  obtain ⟨hAbove, hName⟩ := List.forall_mem_append.mp hNames
  have hThere := (leadsToDirectory_iff hNames hShort).mpr ⟨entries, h⟩
  rw [ensureDirectory, addDirectoryAt_of_leadsDown _ _ _ (List.forall_mem_singleton.mp hName),
    hThere]
  rcases walk_cases tree start hAbove (short_append_singleton_iff.mp hShort).1 with
    ⟨hWalk, -⟩ | ⟨hWalk, -⟩ | ⟨hWalk, -⟩
  · rw [hWalk, ok_bind]
    -- adding cannot succeed where something is, and its error is dropped because a directory is
    -- there
    cases hAdd : tree.addDirectory (start ++ names) name with
    | ok tree' =>
      obtain ⟨-, hMissing, -⟩ := addDirectory_eq_ok hAdd
      rw [List.append_assoc, h] at hMissing
      cases hMissing
    | error fault => rfl
  · rw [hWalk]
    rfl
  · rw [hWalk]
    rfl

/-- **One directory** is made, or the one above is missing, or a file is in the way. -/
theorem ensureDirectory_cases (tree : FileTree) (start : List String) :
    (∃ tree', tree.ensureDirectory start names name = (tree', none) ∧
      DirectoryMade (start ++ (names ++ [name])) tree tree') ∨
    (tree.ensureDirectory start names name = (tree, some .notFound) ∧
      tree.at? (start ++ names) = none) ∨
    ∃ fault, tree.ensureDirectory start names name = (tree, some fault) ∧ fault ≠ .notFound ∧
      tree.Blocked (start ++ (names ++ [name])) := by
  by_cases hThere : ∃ entries, tree.at? (start ++ (names ++ [name])) = some (.directory entries)
  · obtain ⟨entries, hEntries⟩ := hThere
    exact .inl ⟨tree, ensureDirectory_of_directory hNames hShort hEntries, .of_directory hEntries⟩
  · obtain ⟨hAbove, hName⟩ := List.forall_mem_append.mp hNames
    obtain ⟨hShortAbove, hSize⟩ := short_append_singleton_iff.mp hShort
    have hLeads := Bool.eq_false_iff.mpr ((leadsToDirectory_iff hNames hShort).not.mpr hThere)
    rw [ensureDirectory, addDirectoryAt_of_leadsDown _ _ _ (List.forall_mem_singleton.mp hName),
      hLeads, ← List.append_assoc]
    rw [← List.append_assoc] at hThere
    rcases walk_cases tree start hAbove hShortAbove with
      ⟨hWalk, -⟩ | ⟨hWalk, hMissing⟩ | ⟨hWalk, hBlocked⟩
    · rw [hWalk, ok_bind]
      cases hAdd : tree.addDirectory (start ++ names) name with
      | ok tree' =>
        obtain ⟨⟨entries, hEntries⟩, hMissing, hMade, hOthers⟩ := addDirectory_eq_ok hAdd
        refine .inl ⟨tree', rfl, ⟨[], hMade⟩, ?_, hOthers⟩
        exact not_blocked_append_singleton (not_blocked_of_directory hEntries) hMissing
      | error fault =>
        -- of the errors, only a missing parent makes the caller try again above
        rcases addDirectory_eq_error hSize hAdd with
          ⟨rfl, hSome⟩ | ⟨rfl, hBlocked⟩ | ⟨rfl, hMissing⟩
        · obtain ⟨node, hNode⟩ := Option.isSome_iff_exists.mp hSome
          cases node with
          | file inFile =>
            exact .inr (.inr ⟨.exists, rfl, nofun, _, inFile, List.prefix_rfl, hNode⟩)
          | directory entries => exact absurd ⟨entries, hNode⟩ hThere
        · exact .inr (.inr ⟨.notDirectory, rfl, nofun, Blocked.append hBlocked [name]⟩)
        · exact .inr (.inl ⟨rfl, hMissing⟩)
    · exact .inr (.inl ⟨by rw [hWalk]; rfl, hMissing⟩)
    · exact .inr (.inr ⟨.notDirectory, by rw [hWalk]; rfl, nofun, Blocked.append hBlocked [name]⟩)

end Down

/-- **Going down.** Parts whose names are short and none of them up lead where their names lead. -/
theorem walk_down_iff {here parts : List String} {node : FileTree}
    (hUp : ".." ∉ namesAmong parts) (hParts : Short (namesAmong parts))
    (hName : IsName name) (hShort : name.utf8ByteSize ≤ nameLimit) :
    (∃ there, tree.walk here (parts ++ [name]) = .ok there ∧ tree.at? there = some node) ↔
      tree.at? (here ++ (namesAmong parts ++ [name])) = some node := by
  have hDown : ∀ part ∈ namesAmong parts ++ [name], LeadsDown part :=
    List.forall_mem_append.mpr ⟨leadsDown_namesAmong hUp,
      List.forall_mem_singleton.mpr hName.leadsDown⟩
  have hAllShort := short_append_singleton_iff.mpr ⟨hParts, hShort⟩
  rw [walk_namesAmong]
  constructor
  · rintro ⟨there, hWalk, hThere⟩
    -- a walk that ends well excludes the two ways of being stuck
    rcases walk_cases tree here hDown hAllShort with ⟨hOk, -⟩ | ⟨hError, -⟩ | ⟨hError, -⟩
    · rw [hOk] at hWalk
      cases hWalk
      exact hThere
    · rw [hError] at hWalk
      cases hWalk
    · rw [hError] at hWalk
      cases hWalk
  · -- here the node that is given shows that nothing is in the way
    intro hNode
    exact ⟨_, (walk_names hDown (Option.isSome_of_eq_some hNode)).trans (if_pos hAllShort), hNode⟩

/-- **All directories on a way down** are made, or nothing is: a file is in the way, or there is not
even the directory that the way starts from. -/
theorem makeDirectoriesUpTo_cases {above : List String} (tree : FileTree) (start : List String)
    (hNames : ∀ name ∈ above.reverse, LeadsDown name) (hShort : Short above.reverse) :
    (∃ tree', makeDirectoriesUpTo start above tree = (tree', none) ∧
      DirectoryMade (start ++ above.reverse) tree tree') ∨
    ∃ fault, makeDirectoriesUpTo start above tree = (tree, some fault) ∧
      (tree.Blocked (start ++ above.reverse) ∨ tree.at? start = none) := by
  induction above generalizing tree with
  | nil =>
    have hLeads : tree.leadsToDirectory start [] = true ↔
        ∃ entries, tree.at? (start ++ []) = some (.directory entries) :=
      leadsToDirectory_iff hNames hShort
    rw [List.append_nil] at hLeads
    rw [makeDirectoriesUpTo, List.reverse_nil, List.append_nil]
    cases hStart : tree.at? start with
    | none => exact .inr ⟨.notFound, by simp [hLeads, hStart], .inr rfl⟩
    | some node =>
      cases node with
      | file content =>
        refine .inr ⟨.notFound, by simp [hLeads, hStart], .inl ?_⟩
        exact ⟨start, content, List.prefix_rfl, hStart⟩
      | directory entries =>
        exact .inl ⟨tree, by simp [hLeads, hStart], .of_directory hStart⟩
  | cons name above ih =>
    rw [List.reverse_cons] at hNames hShort ⊢
    rw [makeDirectoriesUpTo]
    rcases ensureDirectory_cases hNames hShort tree start with
      ⟨tree', hEnsure, hMade⟩ | ⟨hEnsure, hMissing⟩ | ⟨fault, hEnsure, hFault, hBlocked⟩
    · rw [hEnsure]
      exact .inl ⟨tree', rfl, hMade⟩
    · -- the directory above is made first, and then nothing can be in the way any more
      rw [hEnsure]
      rcases ih tree (List.forall_mem_append.mp hNames).1 (short_append_singleton_iff.mp hShort).1
        with ⟨tree₁, hAbove, hMade⟩ | ⟨fault, hAbove, hWhy⟩
      · simp only [hAbove]
        obtain ⟨entries, hEntries⟩ := hMade.directory
        have hBelow : tree.at? (start ++ above.reverse ++ [name]) = none := by
          rw [at?_append, hMissing, Option.bind_none]
        have hBelow₁ : tree₁.at? (start ++ above.reverse ++ [name]) = none := by
          rw [hMade.others _ (not_append_isPrefix (by simp)), hBelow]
        rcases ensureDirectory_cases hNames hShort tree₁ start with
          ⟨tree₂, hEnsure₁, hMade₁⟩ | ⟨-, hMissing₁⟩ | ⟨-, -, -, hBlocked⟩
        · refine .inl ⟨tree₂, hEnsure₁, hMade₁.directory, ?_, ?_⟩
          · rw [← List.append_assoc]
            exact not_blocked_append_singleton hMade.free hBelow
          · refine (hMade.others.mono ?_).trans hMade₁.others
            rw [← List.append_assoc]
            exact List.prefix_append _ _
        · rw [hEntries] at hMissing₁
          cases hMissing₁
        · have hFree := not_blocked_of_directory hEntries
          rw [← List.append_assoc] at hBlocked
          exact absurd hBlocked (not_blocked_append_singleton hFree hBelow₁)
      · simp only [hAbove]
        refine .inr ⟨fault, rfl, hWhy.imp_left fun hBlocked => ?_⟩
        rw [← List.append_assoc]
        exact hBlocked.append [name]
    · rw [hEnsure]
      refine .inr ⟨fault, ?_, .inl hBlocked⟩
      cases fault with
      | notFound => exact absurd rfl hFault
      | _ => rfl

-- ---------------------------------------------------------------------------
-- Paths
-- ---------------------------------------------------------------------------

section Paths

variable {path : String} {workingDirectory : List String}

/-- A path that is not refused is made from its components, the last one first. -/
theorem makeDirectories_eq (hNul : '\x00' ∉ path.toList) (hPath : path.utf8ByteSize ≤ pathLimit)
    (tree : FileTree) (workingDirectory : List String) :
    tree.makeDirectories workingDirectory path =
      makeDirectoriesUpTo (origin workingDirectory path) (components path).reverse tree := by
  rw [makeDirectories, if_neg (fun h => hNul (List.contains_iff_mem.mp h)),
    if_neg (Nat.not_lt.mpr hPath)]

/-- **All directories on the way** are made, or nothing is. -/
theorem makeDirectories_cases (tree : FileTree) (workingDirectory : List String)
    (hUp : ".." ∉ components path) (hShort : Short (components path))
    (hPath : path.utf8ByteSize ≤ pathLimit) :
    (∃ tree', tree.makeDirectories workingDirectory path = (tree', none) ∧
      '\x00' ∉ path.toList ∧
      DirectoryMade (origin workingDirectory path ++ components path) tree tree') ∨
    ∃ fault, tree.makeDirectories workingDirectory path = (tree, some fault) ∧
      ('\x00' ∉ path.toList → tree.Blocked (origin workingDirectory path ++ components path) ∨
        tree.at? (origin workingDirectory path) = none) := by
  by_cases hNul : '\x00' ∈ path.toList
  · refine .inr ⟨.nulInPath, ?_, absurd hNul⟩
    rw [makeDirectories, if_pos (List.contains_iff_mem.mpr hNul)]
  · rw [makeDirectories_eq hNul hPath]
    -- the recursion takes names off the end, so it runs over them in reverse
    have hCases := @makeDirectoriesUpTo_cases (components path).reverse tree
      (origin workingDirectory path)
    rw [List.reverse_reverse] at hCases
    rcases hCases (leadsDown_namesAmong hUp) hShort with
      ⟨tree', hMake, hMade⟩ | ⟨fault, hMake, hWhy⟩
    · exact .inl ⟨tree', hMake, hNul, hMade⟩
    · exact .inr ⟨fault, hMake, fun _ => hWhy⟩

/-- Where all directories are there, none is made. -/
theorem makeDirectories_of_directory
    (h : tree.at? (origin workingDirectory path ++ components path) = some (.directory entries))
    (hUp : ".." ∉ components path) (hShort : Short (components path))
    (hNul : '\x00' ∉ path.toList) (hPath : path.utf8ByteSize ≤ pathLimit) :
    tree.makeDirectories workingDirectory path = (tree, none) := by
  have hDown : ∀ name ∈ components path, LeadsDown name := leadsDown_namesAmong hUp
  rw [makeDirectories_eq hNul hPath]
  -- the recursion starts at the last component, if there is one, and ends there at once
  rcases List.eq_nil_or_concat (components path) with hNil | ⟨above, name, hNames⟩
  · rw [hNil] at h hDown hShort ⊢
    rw [List.reverse_nil, makeDirectoriesUpTo,
      (leadsToDirectory_iff hDown hShort).mpr ⟨entries, h⟩, if_pos rfl]
  · rw [List.concat_eq_append] at hNames
    rw [hNames] at h hDown hShort ⊢
    rw [List.reverse_append, List.reverse_singleton, List.singleton_append,
      makeDirectoriesUpTo, List.reverse_reverse, ensureDirectory_of_directory hDown hShort h]

/-- In a directory that is there, a file is written by its name. -/
theorem overwriteFile_eq
    (h : tree.at? (origin workingDirectory path ++ components path) = some (.directory entries))
    (hUp : ".." ∉ components path) (hShort : Short (components path))
    (hRefusal : refusal? (join path name) = none) (content : ByteArray) :
    tree.overwriteFile workingDirectory path name content =
      tree.replaceFile (origin workingDirectory path ++ components path) name content := by
  have hWalk : tree.walk (origin workingDirectory path) (components path) =
      .ok (origin workingDirectory path ++ components path) :=
    (walk_names (leadsDown_namesAmong hUp) (Option.isSome_of_eq_some h)).trans (if_pos hShort)
  rw [overwriteFile, hRefusal]
  dsimp only
  rw [hWalk, ok_bind]

end Paths

end FoodScan.FileTree
