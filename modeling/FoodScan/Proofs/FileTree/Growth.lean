import FoodScan.Proofs.FileTree.Making

/-!
# What making directories leaves behind

Making a directory may fail when others have been made on the way, and these stay. But that is all
that it can leave behind, whatever the path is: no file comes or goes, no directory goes, and those
that come are on the way, by which is meant that first parts of the path lead to them (`OnTheWay`).

`OnlyChanges` relates two trees that differ in this manner, and in files at some places. It holds of
one directory that is made and of one file that is written, and walks go on as they did
(`OnlyChanges.walk_eq_ok`), so it carries over to all directories on a way, by induction on the way.

* `onlyChanges_makeDirectories` — what making directories leaves behind, be it successful or not;
* `onlyChanges_overwriteFile` — a file that is written is found at its path.
-/

namespace FoodScan.FileTree

variable {tree tree' tree'' : FileTree}
  {workingDirectory start here there names place : List String} {name : String}
  {content : ByteArray} {written written' made made' : List String → Prop}

-- ---------------------------------------------------------------------------
-- Changes in some places
-- ---------------------------------------------------------------------------

/-- From one tree to the other, files were written in some places, directories were made in some
places, and nothing is gone. -/
structure OnlyChanges (written made : List String → Prop) (tree tree' : FileTree) : Prop where
  /-- Other files are what they were. -/
  files : ∀ place, ¬ written place → ∀ content,
    tree'.at? place = some (.file content) ↔ tree.at? place = some (.file content)
  /-- Directories stay. -/
  kept : ∀ place, (∃ entries, tree.at? place = some (.directory entries)) →
    ∃ entries, tree'.at? place = some (.directory entries)
  /-- Other directories were there. -/
  fresh : ∀ place, (∃ entries, tree'.at? place = some (.directory entries)) →
    (∃ entries, tree.at? place = some (.directory entries)) ∨ made place
  /-- Where there was something, there is something. -/
  there : ∀ place, (tree.at? place).isSome = true → (tree'.at? place).isSome = true

/-- No place. -/
def Nowhere (_ : List String) : Prop := False

namespace OnlyChanges

theorem refl (written made : List String → Prop) (tree : FileTree) :
    OnlyChanges written made tree tree :=
  ⟨fun _ _ _ => .rfl, fun _ h => h, fun _ h => .inl h, fun _ h => h⟩

/-- One change after the other is a change in the places of both. -/
theorem trans (h : OnlyChanges written made tree tree')
    (h' : OnlyChanges written made tree' tree'') : OnlyChanges written made tree tree'' where
  files place hPlace content := (h'.files place hPlace content).trans (h.files place hPlace content)
  kept place hKept := h'.kept place (h.kept place hKept)
  fresh place hFresh := by
    rcases h'.fresh place hFresh with hBefore | hMade
    · exact h.fresh place hBefore
    · exact .inr hMade
  there place hThere := h'.there place (h.there place hThere)

/-- A change in some places is a change in more. -/
theorem mono (h : OnlyChanges written made tree tree')
    (hWritten : ∀ place, written place → written' place)
    (hMade : ∀ place, made place → made' place) : OnlyChanges written' made' tree tree' where
  files place hPlace := h.files place fun hIn => hPlace (hWritten place hIn)
  kept := h.kept
  fresh place hFresh := (h.fresh place hFresh).imp_right (hMade place)
  there := h.there

/-- **Walks** that come somewhere come there still. -/
theorem walk_eq_ok (h : OnlyChanges written made tree tree') {parts : List String}
    (hWalk : tree.walk here parts = .ok there) : tree'.walk here parts = .ok there := by
  induction parts generalizing here with
  | nil => exact hWalk
  | cons part rest ih =>
    rw [walk] at hWalk ⊢
    cases hHere : tree.at? here with
    | none =>
      rw [hHere] at hWalk
      cases hWalk
    | some node =>
      cases node with
      | file content =>
        rw [hHere] at hWalk
        cases hWalk
      | directory entries =>
        obtain ⟨entries', hHere'⟩ := h.kept here ⟨entries, hHere⟩
        have hEntry := h.there (here ++ [part])
        rw [at?_append_singleton hHere, at?_append_singleton hHere'] at hEntry
        rw [hHere] at hWalk
        rw [hHere']
        dsimp only at hWalk ⊢
        -- the walk asks the directory for the entry only after it has looked at the part
        by_cases hBlank : part = "" ∨ part = "."
        · rw [if_pos hBlank] at hWalk ⊢
          exact ih hWalk
        · rw [if_neg hBlank] at hWalk ⊢
          by_cases hUp : part = ".."
          · rw [if_pos hUp] at hWalk ⊢
            exact ih hWalk
          · rw [if_neg hUp] at hWalk ⊢
            split at hWalk
            · cases hWalk
            · rename_i hShort
              split at hWalk
              · rename_i hSome
                rw [if_neg hShort, if_pos (hEntry hSome)]
                exact ih hWalk
              · cases hWalk

end OnlyChanges

-- ---------------------------------------------------------------------------
-- One directory, one file
-- ---------------------------------------------------------------------------

/-- Above a node that is put into a directory, there are directories before and after. -/
theorem directories_above {node : FileTree} {entries : List (String × FileTree)}
    (hDirectory : tree.at? names = some (.directory entries))
    (hNode : tree'.at? (names ++ [name]) = some node) (hPlace : place <+: names) :
    (∃ entries, tree.at? place = some (.directory entries)) ∧
      ∃ entries, tree'.at? place = some (.directory entries) := by
  obtain ⟨rest, rfl⟩ := hPlace
  rw [List.append_assoc] at hNode
  refine ⟨?_, exists_directory_of_at?_append (by simp) hNode⟩
  by_cases hRest : rest = []
  · rw [hRest, List.append_nil] at hDirectory
    exact ⟨entries, hDirectory⟩
  · exact exists_directory_of_at?_append hRest hDirectory

/-- A node that is put into a directory, and seen nowhere else, changes the tree in its place
only. -/
theorem onlyChanges_of_put {node : FileTree} {entries : List (String × FileTree)}
    (hDirectory : tree.at? names = some (.directory entries))
    (hNoDirectory : ∀ sub, tree.at? (names ++ [name]) ≠ some (.directory sub))
    (hNode : tree'.at? (names ++ [name]) = some node)
    (hOff : SameOffTheWay (names ++ [name]) tree tree')
    (hFile : ¬ written (names ++ [name]) → ∀ content,
      node = .file content ↔ tree.at? (names ++ [name]) = some (.file content))
    (hMade : ∀ sub, node = .directory sub → made (names ++ [name])) :
    OnlyChanges written made tree tree' := by
  -- a place is the one that is put, or one on the way to it, where directories were and are, or one
  -- that looks the same
  have hPlaces : ∀ place, place = names ++ [name] ∨
      ((∃ entries, tree.at? place = some (.directory entries)) ∧
        ∃ entries, tree'.at? place = some (.directory entries)) ∨
      tree'.at? place = tree.at? place := by
    intro place
    by_cases hWay : place <+: names ++ [name]
    · rcases List.prefix_concat_iff.mp hWay with hHere | hAbove
      · exact .inl hHere
      · exact .inr (.inl (directories_above hDirectory hNode hAbove))
    · exact .inr (.inr (hOff place hWay))
  constructor
  · intro place hOther content
    rcases hPlaces place with rfl | ⟨⟨_, hBefore⟩, _, hAfter⟩ | hSame
    · rw [hNode, Option.some_inj, hFile hOther content]
    · simp [hBefore, hAfter]
    · rw [hSame]
  · intro place hBefore
    rcases hPlaces place with rfl | ⟨-, hAfter⟩ | hSame
    · obtain ⟨sub, hSub⟩ := hBefore
      exact absurd hSub (hNoDirectory sub)
    · exact hAfter
    · rwa [hSame]
  · intro place hAfter
    rcases hPlaces place with rfl | ⟨hBefore, -⟩ | hSame
    · obtain ⟨sub, hSub⟩ := hAfter
      exact .inr (hMade sub (Option.some_inj.mp (hNode.symm.trans hSub)))
    · exact .inl hBefore
    · rw [hSame] at hAfter
      exact .inl hAfter
  · intro place hBefore
    rcases hPlaces place with rfl | ⟨-, _, hAfter⟩ | hSame
    · rw [hNode, Option.isSome_some]
    · rw [hAfter, Option.isSome_some]
    · rwa [hSame]

/-- **One directory** is made, and that is all. -/
theorem onlyChanges_addDirectory (h : tree.addDirectory names name = .ok tree') :
    OnlyChanges Nowhere (· = names ++ [name]) tree tree' := by
  obtain ⟨⟨entries, hDirectory⟩, hMissing, hMade, hOff⟩ := addDirectory_eq_ok h
  exact onlyChanges_of_put hDirectory (by simp [hMissing]) hMade hOff (by simp [hMissing])
    fun _ _ => rfl

/-- **One file** is written, and that is all. -/
theorem onlyChanges_replaceFile (h : tree.replaceFile names name content = .ok tree') :
    OnlyChanges (· = names ++ [name]) Nowhere tree tree' := by
  obtain ⟨⟨entries, hDirectory⟩, hNoDirectory, hFile, hOff⟩ := replaceFile_eq_ok h
  exact onlyChanges_of_put hDirectory hNoDirectory hFile hOff (absurd rfl) nofun

-- ---------------------------------------------------------------------------
-- The way of a path
-- ---------------------------------------------------------------------------

/-- First parts of a path lead to a place. -/
def OnTheWay (tree : FileTree) (start parts place : List String) : Prop :=
  ∃ way, way <+: parts ∧ tree.walk start way = .ok place

/-- What is on the way stays on it, also if the way goes on. -/
theorem OnTheWay.mono {parts parts' : List String} (h : tree.OnTheWay start parts place)
    (hTree : OnlyChanges written made tree tree') (hParts : parts <+: parts') :
    tree'.OnTheWay start parts' place := by
  obtain ⟨way, hWay, hWalk⟩ := h
  exact ⟨way, hWay.trans hParts, hTree.walk_eq_ok hWalk⟩

/-- A name that is found in the directory that parts lead to is what one more part leads to. -/
theorem walk_append_name {parts : List String} {node : FileTree}
    {entries : List (String × FileTree)} (hWalk : tree.walk start parts = .ok place)
    (hPlace : tree.at? place = some (.directory entries))
    (hNode : tree.at? (place ++ [name]) = some node) (hName : LeadsDown name)
    (hSize : name.utf8ByteSize ≤ nameLimit) :
    tree.walk start (parts ++ [name]) = .ok (place ++ [name]) := by
  rw [at?_append_singleton hPlace] at hNode
  rw [walk_append, hWalk, ok_bind, walk_cons_of_leadsDown hPlace hName,
    if_neg (Nat.not_lt.mpr hSize), if_pos (Option.isSome_of_eq_some hNode), walk]

section Making

variable {parts : List String} (hName : name ≠ "" ∧ name ≠ ".")
include hName

/-- **One part.** The directory that it leads to is made, and it is on the way. -/
theorem onlyChanges_addDirectoryAt (h : tree.addDirectoryAt start parts name = .ok tree') :
    OnlyChanges Nowhere (tree'.OnTheWay start (parts ++ [name])) tree tree' := by
  rw [addDirectoryAt] at h
  split at h
  · obtain ⟨-, -, h⟩ := bind_eq_ok_iff.mp h
    cases h
  · rename_i hUp
    obtain ⟨place, hWalk, hAdd⟩ := bind_eq_ok_iff.mp h
    have hChange := onlyChanges_addDirectory hAdd
    obtain ⟨hDirectory, -, hMade, -⟩ := addDirectory_eq_ok hAdd
    -- the way to the new directory can be walked in the later tree too, because nothing on it is
    -- gone
    obtain ⟨entries, hDirectory'⟩ := hChange.kept place hDirectory
    refine hChange.mono (fun _ hIn => hIn) ?_
    rintro other rfl
    exact ⟨parts ++ [name], List.prefix_rfl, walk_append_name (hChange.walk_eq_ok hWalk) hDirectory'
      hMade ⟨hName.1, hName.2, hUp⟩ (size_of_addDirectory hAdd)⟩

/-- The same where it may be there already. -/
theorem onlyChanges_ensureDirectory (tree : FileTree) (start parts : List String) :
    OnlyChanges Nowhere ((tree.ensureDirectory start parts name).1.OnTheWay start (parts ++ [name]))
      tree (tree.ensureDirectory start parts name).1 := by
  rw [ensureDirectory]
  cases hAdd : tree.addDirectoryAt start parts name with
  | ok tree' => exact onlyChanges_addDirectoryAt hName hAdd
  | error fault =>
    dsimp only
    split <;> exact .refl _ _ tree

end Making

/-- **All directories on a way**, by induction on the way: those above are made first, or there is
nothing to be made above. -/
theorem onlyChanges_makeDirectoriesUpTo {above : List String} (tree : FileTree)
    (start : List String) (hNames : ∀ name ∈ above, name ≠ "" ∧ name ≠ ".") :
    OnlyChanges Nowhere ((makeDirectoriesUpTo start above tree).1.OnTheWay start above.reverse) tree
      (makeDirectoriesUpTo start above tree).1 := by
  induction above generalizing tree with
  | nil => exact .refl _ _ tree
  | cons name above ih =>
    obtain ⟨hName, hAbove⟩ := List.forall_mem_cons.mp hNames
    have hParts : above.reverse <+: above.reverse ++ [name] := List.prefix_append _ _
    -- up to three changes follow one another: a first attempt, the directories above, and a second
    -- attempt
    have hFirst := onlyChanges_ensureDirectory hName tree start above.reverse
    rw [List.reverse_cons, makeDirectoriesUpTo]
    generalize tree.ensureDirectory start above.reverse name = outcome at hFirst ⊢
    obtain ⟨tree₁, fault?⟩ := outcome
    split
    · rename_i tree₂ hOutcome
      cases hOutcome
      have hUp := ih tree₁ hAbove
      generalize makeDirectoriesUpTo start above tree₁ = outcome at hUp ⊢
      obtain ⟨tree₂, fault₂?⟩ := outcome
      cases fault₂? with
      | none =>
        have hLast := onlyChanges_ensureDirectory hName tree₂ start above.reverse
        dsimp only at hFirst hUp ⊢
        have hUp' := hUp.mono (fun _ hIn => hIn) fun _ hWay => hWay.mono hLast hParts
        have hFirst' := hFirst.mono (fun _ hIn => hIn) fun _ hWay =>
          (hWay.mono hUp List.prefix_rfl).mono hLast List.prefix_rfl
        exact (hFirst'.trans hUp').trans hLast
      | some fault =>
        dsimp only at hFirst hUp ⊢
        have hFirst' := hFirst.mono (fun _ hIn => hIn) fun _ hWay => hWay.mono hUp List.prefix_rfl
        exact hFirst'.trans (hUp.mono (fun _ hIn => hIn) fun _ hWay =>
          hWay.mono (.refl Nowhere Nowhere _) hParts)
    · exact hFirst

/-- **Making a directory** leaves nothing behind but directories on the way, whether it comes to its
end or not. -/
theorem onlyChanges_makeDirectories (tree : FileTree) (workingDirectory : List String)
    (path : String) :
    OnlyChanges Nowhere
      ((tree.makeDirectories workingDirectory path).1.OnTheWay (origin workingDirectory path)
        (components path))
      tree (tree.makeDirectories workingDirectory path).1 := by
  rw [makeDirectories]
  split
  · exact .refl _ _ tree
  · split
    · exact .refl _ _ tree
    · -- components are never blank, which is all the recursion asks of its names
      have hNames : ∀ name ∈ (components path).reverse, name ≠ "" ∧ name ≠ "." := fun name hName =>
        of_decide_eq_true (List.mem_filter.mp (List.mem_reverse.mp hName)).2
      have hMake := onlyChanges_makeDirectoriesUpTo tree (origin workingDirectory path) hNames
      rw [List.reverse_reverse] at hMake
      exact hMake

/-- **Writing a file** in the directory at a path writes it where the path leads that goes on with
its name, and changes nothing else. No directory was there. -/
theorem onlyChanges_overwriteFile {directory : String} (hDirectory : directory ≠ "")
    (hName : IsName name)
    (h : tree.overwriteFile workingDirectory directory name content = .ok tree') :
    ∃ place, tree'.locate workingDirectory (join directory name) = .ok place ∧
      tree'.at? place = some (.file content) ∧
      (∀ sub, tree.at? place ≠ some (.directory sub)) ∧
      OnlyChanges (· = place) Nowhere tree tree' := by
  rw [overwriteFile] at h
  cases hRefusal : refusal? (join directory name) with
  | some fault =>
    rw [hRefusal] at h
    cases h
  | none =>
    rw [hRefusal] at h
    obtain ⟨above, hWalk, hReplace⟩ := bind_eq_ok_iff.mp h
    have hChange := onlyChanges_replaceFile hReplace
    obtain ⟨hAbove, hNoDirectory, hFile, -⟩ := replaceFile_eq_ok hReplace
    obtain ⟨entries, hAbove'⟩ := hChange.kept above hAbove
    -- the path is followed in the tree after the change, where only the last step can have become
    -- new
    have hWalk' := walk_append_name (hChange.walk_eq_ok hWalk) hAbove' hFile hName.leadsDown
      (size_of_replaceFile hReplace)
    obtain ⟨parts, hParts, hNames⟩ := pathParts_join directory hName
    refine ⟨above ++ [name], ?_, hFile, hNoDirectory, hChange⟩
    rw [locate_of_refusal? hRefusal, origin_join hDirectory, hParts, walk_namesAmong, hNames]
    exact hWalk'

end FoodScan.FileTree
