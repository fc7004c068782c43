import FoodScan.Proofs.FileTree.Below

/-!
# Trees that differ in one file

`AgreeBut place` relates trees that have the same directories, and the same files but for one place.
A walk asks a tree no more than what is a directory and what is there, so walks over two such trees
come to the same, unless they come to that place or fail on the way (`AgreeBut.walk`); and no walk
goes on from there, since it is no directory.

`FileChange` is how such trees come about: a file of a directory is written or removed
(`FileChange.agreeBut`).
-/

namespace FoodScan.FileTree

variable {tree tree' : FileTree} {workingDirectory place : List String} {path name : String}
  {node : FileTree} {entries entries' : List (String × FileTree)}

-- ---------------------------------------------------------------------------
-- Trees that agree
-- ---------------------------------------------------------------------------

/-- The trees have the same directories, and the same files but for one place. -/
structure AgreeBut (place : List String) (tree tree' : FileTree) : Prop where
  directory_iff : ∀ names, (∃ entries, tree.at? names = some (.directory entries)) ↔
    ∃ entries', tree'.at? names = some (.directory entries')
  file_iff : ∀ names content, names ≠ place →
    (tree.at? names = some (.file content) ↔ tree'.at? names = some (.file content))
  noDirectory : ∀ entries, tree.at? place ≠ some (.directory entries)

/-- No place but this one is come to. -/
def LeadsOnlyTo (place : List String) (result : Except FileFault (List String)) : Prop :=
  ∀ there, result = .ok there → there = place

/-- A walk that fails comes to no place at all. -/
theorem leadsOnlyTo_error (fault : FileFault) : LeadsOnlyTo place (.error fault) := nofun

/-- A walk does not go on from what is no directory. -/
theorem leadsOnlyTo_walk (h : ∀ entries, tree.at? place ≠ some (.directory entries))
    (parts : List String) : LeadsOnlyTo place (tree.walk place parts) := by
  intro there hWalk
  cases parts with
  | nil => exact (Except.ok.inj hWalk).symm
  | cons part rest =>
    rw [walk] at hWalk
    split at hWalk
    · exact absurd ‹_› (h _)
    · cases hWalk
    · cases hWalk

/-- One more name leads to the entry of that name. -/
theorem at?_append_singleton {here : List String} (h : tree.at? here = some (.directory entries))
    (name : String) : tree.at? (here ++ [name]) = entries.lookup name := by
  rw [at?_append, h, Option.bind_some, at?_directory_cons]
  cases entries.lookup name <;> simp

namespace AgreeBut

variable (h : AgreeBut place tree tree')

include h

theorem symm : AgreeBut place tree' tree where
  directory_iff names := (h.directory_iff names).symm
  file_iff names content hOther := (h.file_iff names content hOther).symm
  noDirectory entries' hDirectory := by
    obtain ⟨entries, hSame⟩ := (h.directory_iff place).mpr ⟨entries', hDirectory⟩
    exact h.noDirectory entries hSame

/-- Trees that agree have something in the same places. -/
theorem isSome_at? {names : List String} (hOther : names ≠ place) :
    (tree'.at? names).isSome = (tree.at? names).isSome := by
  have hSome : ∀ {tree tree' : FileTree}, AgreeBut place tree tree' →
      (tree.at? names).isSome = true → (tree'.at? names).isSome = true := by
    intro tree tree' h hIsSome
    obtain ⟨node, hNode⟩ := Option.isSome_iff_exists.mp hIsSome
    cases node with
    | file content => exact Option.isSome_of_eq_some ((h.file_iff names content hOther).mp hNode)
    | directory entries =>
      obtain ⟨entries', hNode'⟩ := (h.directory_iff names).mp ⟨entries, hNode⟩
      exact Option.isSome_of_eq_some hNode'
  rw [Bool.eq_iff_iff]
  exact ⟨hSome h.symm, hSome h⟩

/-- **Walks.** They come to the same, or to nothing but the place in which the trees differ. -/
theorem walk (here parts : List String) :
    tree'.walk here parts = tree.walk here parts ∨
      LeadsOnlyTo place (tree.walk here parts) ∧ LeadsOnlyTo place (tree'.walk here parts) := by
  induction parts generalizing here with
  | nil => exact .inl rfl
  | cons part rest ih =>
    -- the trees agree on where directories are, so both walks are stuck here or neither is
    by_cases hHere : ∃ entries, tree.at? here = some (.directory entries)
    · obtain ⟨entries', hEntries'⟩ := (h.directory_iff here).mp hHere
      obtain ⟨entries, hEntries⟩ := hHere
      rw [FileTree.walk, FileTree.walk, hEntries, hEntries']
      dsimp only
      split
      · exact ih here
      · split
        · exact ih here.dropLast
        · split
          · exact .inl rfl
          · by_cases hPlace : here ++ [part] = place
            · -- one of the trees may lack the entry, but neither walk gets beyond it
              rw [hPlace]
              refine .inr ⟨?_, ?_⟩
              · split
                · exact leadsOnlyTo_walk h.noDirectory rest
                · exact leadsOnlyTo_error _
              · split
                · exact leadsOnlyTo_walk h.symm.noDirectory rest
                · exact leadsOnlyTo_error _
            · have hSame := h.isSome_at? hPlace
              rw [at?_append_singleton hEntries, at?_append_singleton hEntries'] at hSame
              rw [hSame]
              split
              · exact ih (here ++ [part])
              · exact .inl rfl
    · have hHere' := (h.directory_iff here).not.mp hHere
      have hStuck : ∀ {tree : FileTree}, (¬ ∃ entries, tree.at? here = some (.directory entries)) →
          LeadsOnlyTo place (tree.walk here (part :: rest)) := by
        intro tree hNone
        rw [FileTree.walk]
        split
        · exact absurd ⟨_, ‹_›⟩ hNone
        · exact leadsOnlyTo_error _
        · exact leadsOnlyTo_error _
      exact .inr ⟨hStuck hHere, hStuck hHere'⟩

/-- Paths, as walks. -/
theorem locate (workingDirectory : List String) (path : String) :
    tree'.locate workingDirectory path = tree.locate workingDirectory path ∨
      LeadsOnlyTo place (tree.locate workingDirectory path) ∧
        LeadsOnlyTo place (tree'.locate workingDirectory path) := by
  rw [FileTree.locate, FileTree.locate]
  cases refusal? path with
  | some fault => exact .inl rfl
  | none => exact h.walk _ _

/-- A path that leads to another place in one of the trees leads to it in both. -/
theorem locate_eq_ok {there : List String} (hOther : there ≠ place)
    (hThere : tree.locate workingDirectory path = .ok there) :
    tree'.locate workingDirectory path = .ok there := by
  rcases h.locate workingDirectory path with hSame | ⟨hOnly, -⟩
  · rw [hSame, hThere]
  · exact absurd (hOnly there hThere) hOther

/-- A directory is found in both trees, in the same place. -/
theorem exists_base (hEntries : tree.entriesAt? workingDirectory path = some entries) :
    ∃ base entries', tree.locate workingDirectory path = .ok base ∧
      tree.at? base = some (.directory entries) ∧
      tree'.locate workingDirectory path = .ok base ∧
      tree'.at? base = some (.directory entries') := by
  obtain ⟨base, hBase, hDirectory⟩ := entriesAt?_eq_some_iff.mp hEntries
  have hOther : base ≠ place := fun hPlace => h.noDirectory entries (hPlace ▸ hDirectory)
  obtain ⟨entries', hDirectory'⟩ := (h.directory_iff base).mp ⟨entries, hDirectory⟩
  exact ⟨base, entries', hBase, hDirectory, h.locate_eq_ok hOther hBase, hDirectory'⟩

/-- A path that leads to no directory in one tree leads to none in the other. -/
theorem entriesAt?_eq_none (hNone : tree.entriesAt? workingDirectory path = none) :
    tree'.entriesAt? workingDirectory path = none := by
  cases hEntries : tree'.entriesAt? workingDirectory path with
  | none => rfl
  | some entries' =>
    obtain ⟨base, entries, -, -, hBase, hDirectory⟩ := h.symm.exists_base hEntries
    rw [entriesAt?_eq_some_iff.mpr ⟨base, hBase, hDirectory⟩] at hNone
    cases hNone

/-- A file at a path that does not lead to the place is found in both trees. -/
theorem find_file {content : ByteArray}
    (hPath : tree.locate workingDirectory path ≠ .ok place)
    (hFile : tree.find workingDirectory path = .ok (.file content)) :
    tree'.find workingDirectory path = .ok (.file content) := by
  obtain ⟨there, hThere, hNode⟩ := find_eq_ok_iff.mp hFile
  have hOther : there ≠ place := fun hPlace => hPath (hPlace ▸ hThere)
  exact find_eq_ok_iff.mpr
    ⟨there, h.locate_eq_ok hOther hThere, (h.file_iff there content hOther).mp hNode⟩

end AgreeBut

-- ---------------------------------------------------------------------------
-- Entries
-- ---------------------------------------------------------------------------

/-- An entry is looked up from the first one on. -/
theorem lookup_cons_eq (other : String) (e : String × FileTree) (rest : List (String × FileTree)) :
    (e :: rest).lookup other = if other = e.1 then some e.2 else rest.lookup other := by
  rw [List.lookup_cons]
  by_cases hName : other = e.1
  · simp [hName]
  · rw [beq_eq_false_iff_ne.mpr hName, if_neg hName]

/-- An entry that was put is found under its name, and all others as before. -/
theorem lookup_putEntry (name other : String) (node : FileTree)
    (entries : List (String × FileTree)) :
    (putEntry name node entries).lookup other =
      if other = name then some node else entries.lookup other := by
  induction entries with
  | nil => exact lookup_cons_eq other (name, node) []
  | cons e rest ih =>
    rw [putEntry]
    -- an entry of the name is replaced where it stands, else the new one comes last
    by_cases hName : e.1 = name
    · rw [if_pos hName, lookup_cons_eq, lookup_cons_eq, hName]
      split <;> rfl
    · rw [if_neg hName, lookup_cons_eq, lookup_cons_eq, ih]
      by_cases hOther : other = name
      · rw [if_neg (hOther ▸ Ne.symm hName), if_pos hOther]
        exact (if_pos hOther).symm
      · rw [if_neg hOther, if_neg hOther]

/-- A name that was removed is not found, and all others as before. -/
theorem lookup_removeName (name other : String) (entries : List (String × FileTree)) :
    (entries.filter fun e => e.1 ≠ name).lookup other =
      if other = name then none else entries.lookup other := by
  induction entries with
  | nil => exact (ite_self none).symm
  | cons e rest ih =>
    rw [List.filter_cons, lookup_cons_eq]
    by_cases hName : e.1 = name
    · rw [if_neg (by simpa using hName), ih, hName]
      split <;> rfl
    · rw [if_pos (decide_eq_true hName), lookup_cons_eq, ih]
      by_cases hOther : other = name
      · rw [if_neg (hOther ▸ Ne.symm hName), if_pos hOther, if_pos hOther]
      · rw [if_neg hOther, if_neg hOther]

/-- What is there after an entry was put is that entry, or was there. -/
theorem mem_putEntry {e : String × FileTree} (he : e ∈ putEntry name node entries) :
    e = (name, node) ∨ e ∈ entries := by
  induction entries with
  | nil => exact .inl (List.mem_singleton.mp he)
  | cons f rest ih =>
    rw [putEntry] at he
    split at he
    · exact (List.mem_cons.mp he).imp_right (List.mem_cons_of_mem _)
    · rcases List.mem_cons.mp he with rfl | he
      · exact .inr List.mem_cons_self
      · exact (ih he).imp_right (List.mem_cons_of_mem _)

/-- Putting an entry leaves names distinct. -/
theorem nodup_putEntry (h : (entries.map Prod.fst).Nodup) :
    ((putEntry name node entries).map Prod.fst).Nodup := by
  induction entries with
  | nil => exact List.nodup_singleton _
  | cons e rest ih =>
    obtain ⟨hHead, hRest⟩ := List.nodup_cons.mp h
    rw [putEntry]
    split
    · rename_i hName
      rw [hName] at hHead
      exact List.nodup_cons.mpr ⟨hHead, hRest⟩
    · rename_i hName
      -- an entry of the new list that has this name was there before, or is the one put
      refine List.nodup_cons.mpr ⟨fun hMem => ?_, ih hRest⟩
      obtain ⟨f, hf, hSame⟩ := List.mem_map.mp hMem
      rcases mem_putEntry hf with rfl | hf
      · exact hName hSame.symm
      · exact hHead (List.mem_map.mpr ⟨f, hf, hSame⟩)

/-- A directory stays well-formed when a well-formed entry is put into it. -/
theorem WellFormed.putEntry (h : (FileTree.directory entries).WellFormed) (hName : IsName name)
    (hNode : node.WellFormed) :
    (FileTree.directory (FileTree.putEntry name node entries)).WellFormed := by
  cases h with
  | directory hDistinct hNames hNodes =>
    refine .directory (nodup_putEntry hDistinct) (fun e he => ?_) fun e he => ?_
    · rcases mem_putEntry he with rfl | he
      · exact hName
      · exact hNames e he
    · rcases mem_putEntry he with rfl | he
      · exact hNode
      · exact hNodes e he

/-- A directory stays well-formed when a name is removed. -/
theorem WellFormed.removeName (h : (FileTree.directory entries).WellFormed) (name : String) :
    (FileTree.directory (entries.filter fun e => e.1 ≠ name)).WellFormed := by
  cases h with
  | directory hDistinct hNames hNodes =>
    exact .directory (hDistinct.sublist (List.filter_sublist.map _))
      (fun e he => hNames e (List.mem_of_mem_filter he))
      fun e he => hNodes e (List.mem_of_mem_filter he)

-- ---------------------------------------------------------------------------
-- Changes
-- ---------------------------------------------------------------------------

/-- Entries that agree but for one name, which is that of no directory. -/
theorem agreeBut_here
    (hOthers : ∀ other, other ≠ name → entries'.lookup other = entries.lookup other)
    (hNode : ∀ sub, entries.lookup name ≠ some (.directory sub))
    (hNode' : ∀ sub, entries'.lookup name ≠ some (.directory sub)) :
    AgreeBut [name] (.directory entries) (.directory entries') := by
  have hName : ∀ entries : List (String × FileTree),
      (directory entries).at? [name] = entries.lookup name :=
    fun entries => at?_append_singleton (at?_nil (directory entries)) name
  -- the entry is no directory in either tree, so no longer list of names leads anywhere through it
  have hBeyond : ∀ {entries : List (String × FileTree)} (second : String) (rest : List String),
      (∀ sub, entries.lookup name ≠ some (.directory sub)) →
        (directory entries).at? (name :: second :: rest) = none := by
    intro entries second rest hNode
    rw [at?_directory_cons]
    cases hLookup : entries.lookup name with
    | none => rfl
    | some node =>
      cases node with
      | file content => rfl
      | directory sub => exact absurd hLookup (hNode sub)
  constructor
  · intro names
    match names with
    | [] => simp
    | other :: rest =>
      by_cases hOther : other = name
      · subst hOther
        match rest with
        | [] =>
          rw [hName, hName]
          exact ⟨fun ⟨sub, hSub⟩ => absurd hSub (hNode sub),
            fun ⟨sub, hSub⟩ => absurd hSub (hNode' sub)⟩
        | second :: rest => rw [hBeyond second rest hNode, hBeyond second rest hNode']
      · rw [at?_directory_cons, at?_directory_cons, hOthers other hOther]
  · intro names content hPlace
    match names with
    | [] => simp
    | other :: rest =>
      by_cases hOther : other = name
      · subst hOther
        match rest with
        | [] => exact absurd rfl hPlace
        | second :: rest => rw [hBeyond second rest hNode, hBeyond second rest hNode']
      · rw [at?_directory_cons, at?_directory_cons, hOthers other hOther]
  · rw [hName]
    exact hNode

/-- Entries that agree but for one name, and under this name the trees do. -/
theorem AgreeBut.below {child child' : FileTree} (h : AgreeBut place child child')
    (hOthers : ∀ other, other ≠ name → entries'.lookup other = entries.lookup other)
    (hChild : entries.lookup name = some child) (hChild' : entries'.lookup name = some child') :
    AgreeBut (name :: place) (.directory entries) (.directory entries') := by
  -- under the entry that leads on the trees are the two children, and elsewhere they are the same
  have hNames : ∀ rest, (directory entries).at? (name :: rest) = child.at? rest ∧
      (directory entries').at? (name :: rest) = child'.at? rest := by
    intro rest
    rw [at?_directory_cons, at?_directory_cons, hChild, hChild']
    exact ⟨rfl, rfl⟩
  constructor
  · intro names
    match names with
    | [] => simp
    | other :: rest =>
      by_cases hOther : other = name
      · rw [hOther, (hNames rest).1, (hNames rest).2]
        exact h.directory_iff rest
      · rw [at?_directory_cons, at?_directory_cons, hOthers other hOther]
  · intro names content hPlace
    match names with
    | [] => simp
    | other :: rest =>
      by_cases hOther : other = name
      · rw [hOther, (hNames rest).1, (hNames rest).2]
        exact h.file_iff rest content fun hRest => hPlace (by rw [hOther, hRest])
      · rw [at?_directory_cons, at?_directory_cons, hOthers other hOther]
  · rw [(hNames place).1]
    exact h.noDirectory

/-- Names lead to a node through the entry of the first of them. -/
theorem at?_cons_eq_some_iff {first : String} {rest : List String} :
    tree.at? (first :: rest) = some node ↔
      ∃ outer child, tree = .directory outer ∧ outer.lookup first = some child ∧
        child.at? rest = some node := by
  cases tree with
  | file content => simp [at?]
  | directory outer => simp [at?_directory_cons, Option.bind_eq_some_iff]

/-- **One step.** A change below an entry that is there puts the changed entry in its place. -/
theorem changeDirectory_cons_of_lookup
    {change : List (String × FileTree) → List (String × FileTree)} {first : String}
    {rest : List String} {outer : List (String × FileTree)} {child : FileTree}
    (hChild : outer.lookup first = some child)
    (h : changeDirectory change (first :: rest) (.directory outer) = .ok tree') :
    ∃ child', changeDirectory change rest child = .ok child' ∧
      tree' = .directory (putEntry first child' outer) := by
  rw [changeDirectory, hChild, Option.getD_some] at h
  obtain ⟨child', hChanged, h⟩ := bind_eq_ok_iff.mp h
  exact ⟨child', hChanged, (Except.ok.inj h).symm⟩

/-- **Changes below.** What a change makes of the entries of a directory that is there, the trees
show at its place. -/
theorem agreeBut_changeDirectory {change : List (String × FileTree) → List (String × FileTree)}
    {names : List String} (hDirectory : tree.at? names = some (.directory entries))
    (hHere : AgreeBut [name] (.directory entries) (.directory (change entries)))
    (h : changeDirectory change names tree = .ok tree') :
    AgreeBut (names ++ [name]) tree tree' := by
  induction names generalizing tree tree' with
  | nil =>
    rw [at?_nil] at hDirectory
    cases hDirectory
    cases h
    exact hHere
  | cons first rest ih =>
    obtain ⟨outer, child, rfl, hChild, hRest⟩ := at?_cons_eq_some_iff.mp hDirectory
    obtain ⟨child', hChanged, rfl⟩ := changeDirectory_cons_of_lookup hChild h
    -- above the change only the child on the way is replaced
    refine (ih hRest hChanged).below (fun other hOther => ?_) hChild ?_
    · rw [lookup_putEntry, if_neg hOther]
    · rw [lookup_putEntry, if_pos rfl]

/-- A tree stays well-formed when a directory in it is changed and stays so. -/
theorem WellFormed.changeDirectory
    {change : List (String × FileTree) → List (String × FileTree)} {names : List String}
    (hTree : tree.WellFormed) (hDirectory : tree.at? names = some (.directory entries))
    (hHere : (FileTree.directory (change entries)).WellFormed)
    (h : FileTree.changeDirectory change names tree = .ok tree') : tree'.WellFormed := by
  induction names generalizing tree tree' with
  | nil =>
    rw [at?_nil] at hDirectory
    cases hDirectory
    cases h
    exact hHere
  | cons first rest ih =>
    -- names on the way are names of entries already, so putting the child back keeps them valid
    have hFirst := (hTree.at? hDirectory).2 first List.mem_cons_self
    obtain ⟨outer, child, rfl, hChild, hRest⟩ := at?_cons_eq_some_iff.mp hDirectory
    obtain ⟨child', hChanged, rfl⟩ := changeDirectory_cons_of_lookup hChild h
    have hNode : (FileTree.directory outer).at? [first] = some child :=
      at?_cons_eq_some_iff.mpr ⟨outer, child, rfl, hChild, at?_nil child⟩
    exact hTree.putEntry hFirst (ih (hTree.at? hNode).1 hRest hChanged)

/-- A file of a directory is written, whether or not it is there, or removed. -/
inductive FileChange (tree : FileTree) (names : List String) (name : String) : FileTree → Prop
  | written {content : ByteArray} {tree' : FileTree} (hName : IsName name)
    (h : tree.writeFile names name content = .ok tree') : FileChange tree names name tree'
  | removed {tree' : FileTree} (h : tree.removeEntry names name = .ok tree') :
    FileChange tree names name tree'

variable {names : List String}

/-- A file may be written and removed in a well-formed tree. -/
theorem FileChange.wellFormed (h : FileChange tree names name tree') (hTree : tree.WellFormed)
    (hDirectory : tree.at? names = some (.directory entries)) : tree'.WellFormed := by
  have hEntries := (hTree.at? hDirectory).1
  cases h with
  | written hName h => exact hTree.changeDirectory hDirectory (hEntries.putEntry hName (.file _)) h
  | removed h => exact hTree.changeDirectory hDirectory (hEntries.removeName name) h

/-- **A file is written or removed.** The trees agree but for its place. -/
theorem FileChange.agreeBut (h : FileChange tree names name tree')
    (hDirectory : tree.at? names = some (.directory entries))
    (hFile : ∀ sub, tree.at? (names ++ [name]) ≠ some (.directory sub)) :
    AgreeBut (names ++ [name]) tree tree' := by
  -- writing and removing differ only in what is found under the name afterwards: a file or nothing
  rw [at?_append_singleton hDirectory] at hFile
  cases h with
  | written hName h =>
    refine agreeBut_changeDirectory hDirectory (agreeBut_here (fun other hOther => ?_) hFile ?_) h
    · rw [lookup_putEntry, if_neg hOther]
    · intro sub
      rw [lookup_putEntry, if_pos rfl]
      simp
  | removed h =>
    refine agreeBut_changeDirectory hDirectory (agreeBut_here (fun other hOther => ?_) hFile ?_) h
    · rw [lookup_removeName, if_neg hOther]
    · intro sub
      rw [lookup_removeName, if_pos rfl]
      simp

end FoodScan.FileTree
