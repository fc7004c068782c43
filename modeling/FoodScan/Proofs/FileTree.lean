import FoodScan.FileTree
import FoodScan.Proofs.KeyMap
import FoodScan.Proofs.Traversal

/-!
# What is found in a file tree

`FileTree.find` leads from a path to a node, and whatever is asked of a path is asked of that node:
whether it is a file (`hasFile_eq_true_iff`), what its text is (`readText_eq_ok_iff`), and which
entries it has (`entriesAt?_eq_some_iff`).

`WellFormed` is what every tree of a file system is like: the entries of a directory have distinct
names, and names are not mistaken for paths. `Reordered` relates trees that differ in nothing but
the order in which directories list their entries; whatever is found in one of them is found in the
other (`Reordered.at?`, `Reordered.entriesAt?`).

The components of a path are its parts without those that lead nowhere. Names that are joined to a
path are its last components (`components_join`, `components_intercalate`).
-/

namespace FoodScan

namespace FileTree

variable {tree tree' : FileTree} {workingDirectory : List String} {path : String}

-- ---------------------------------------------------------------------------
-- Questions about a path
-- ---------------------------------------------------------------------------

/-- There is a file at a path exactly if one is found there. -/
theorem hasFile_eq_true_iff :
    tree.hasFile workingDirectory path = true ↔
      ∃ content, tree.find workingDirectory path = .ok (.file content) := by
  rw [hasFile]
  cases hFind : tree.find workingDirectory path with
  | error fault => simp
  | ok node => cases node <;> simp [isFile]

/-- A text is read from a file whose bytes are its own. -/
theorem readText_eq_ok_iff {text : String} :
    tree.readText workingDirectory path = .ok text ↔
      ∃ content, tree.find workingDirectory path = .ok (.file content) ∧
        String.fromUTF8? content = some text := by
  rw [readText]
  cases hFind : tree.find workingDirectory path with
  | error fault => simp [bind, Except.bind]
  | ok node =>
    cases node with
    | directory entries => simp [bind, Except.bind]
    | file content =>
      cases hText : String.fromUTF8? content <;> simp [bind, Except.bind, pure, Except.pure, hText]

/-- What was written as text is read as that text. -/
theorem readText_of_toUTF8 {text : String}
    (h : tree.find workingDirectory path = .ok (.file text.toUTF8)) :
    tree.readText workingDirectory path = .ok text :=
  readText_eq_ok_iff.mpr ⟨text.toUTF8, h, dif_pos text.isValidUTF8⟩

/-- A path is walked unless it is empty, too long, or holds the character that ends paths. -/
theorem refusal?_eq_none_iff :
    refusal? path = none ↔
      '\x00' ∉ path.toList ∧ path ≠ "" ∧ path.utf8ByteSize ≤ pathLimit := by
  rw [refusal?]
  split
  · rename_i hNul
    exact iff_of_false nofun fun h => h.1 (List.contains_iff_mem.mp hNul)
  · rename_i hNul
    split
    · rename_i hEmpty
      exact iff_of_false nofun fun h => h.2.1 (String.isEmpty_iff.mp hEmpty)
    · rename_i hEmpty
      split
      · rename_i hLong
        exact iff_of_false nofun fun h => absurd h.2.2 (Nat.not_le.mpr hLong)
      · rename_i hShort
        exact iff_of_true rfl ⟨fun h => hNul (List.contains_iff_mem.mpr h),
          fun h => hEmpty (String.isEmpty_iff.mpr h), Nat.not_lt.mp hShort⟩

/-- A path that is not refused is walked from where it starts. -/
theorem locate_of_refusal? (h : refusal? path = none) (tree : FileTree)
    (workingDirectory : List String) :
    tree.locate workingDirectory path =
      tree.walk (origin workingDirectory path) (pathParts path) := by
  rw [locate, h]

/-- What is found at a path is what is in the place that it leads to. -/
theorem find_eq_ok_iff {node : FileTree} :
    tree.find workingDirectory path = .ok node ↔
      ∃ names, tree.locate workingDirectory path = .ok names ∧ tree.at? names = some node := by
  rw [find, bind_eq_ok_iff]
  refine exists_congr fun names => and_congr_right fun _ => ?_
  cases tree.at? names <;> simp [pure, Except.pure]

/-- A path has entries if it leads to a directory with them. -/
theorem entriesAt?_eq_some_iff {entries : List (String × FileTree)} :
    tree.entriesAt? workingDirectory path = some entries ↔
      ∃ names, tree.locate workingDirectory path = .ok names ∧
        tree.at? names = some (.directory entries) := by
  rw [← find_eq_ok_iff, entriesAt?]
  cases tree.find workingDirectory path with
  | error fault => simp
  | ok node => cases node <;> simp

-- ---------------------------------------------------------------------------
-- Nodes
-- ---------------------------------------------------------------------------

@[simp] theorem at?_nil (tree : FileTree) : tree.at? [] = some tree := by
  cases tree <;> rfl

/-- The first name leads to its entry, and the others on from there. -/
theorem at?_directory_cons (entries : List (String × FileTree)) (name : String)
    (names : List String) :
    (directory entries).at? (name :: names) = (entries.lookup name).bind (·.at? names) := by
  rw [at?]
  cases entries.lookup name <;> rfl

/-- Some names lead on from where others lead to. -/
theorem at?_append (tree : FileTree) (names more : List String) :
    tree.at? (names ++ more) = (tree.at? names).bind (·.at? more) := by
  induction names generalizing tree with
  | nil => simp
  | cons name rest ih =>
    cases tree with
    | file content => rfl
    | directory entries =>
      rw [List.cons_append, at?_directory_cons, at?_directory_cons]
      cases entries.lookup name with
      | none => rfl
      | some node => exact ih node

-- ---------------------------------------------------------------------------
-- Well-formed trees
-- ---------------------------------------------------------------------------

/-- A name that an entry of a directory can have. -/
structure IsName (name : String) : Prop where
  nonempty : name ≠ ""
  noSlash : '/' ∉ name.toList
  noNul : '\x00' ∉ name.toList
  notHere : name ≠ "."
  notParent : name ≠ ".."

/-- A tree such as file systems hold: entries have names, distinct ones in every directory. -/
inductive WellFormed : FileTree → Prop
  | file (content : ByteArray) : WellFormed (.file content)
  | directory {entries : List (String × FileTree)} (hDistinct : (entries.map Prod.fst).Nodup)
    (hNames : ∀ e ∈ entries, IsName e.1) (hNodes : ∀ e ∈ entries, WellFormed e.2) :
    WellFormed (.directory entries)

instance (name : String) : Decidable (IsName name) :=
  decidable_of_iff
    (name ≠ "" ∧ '/' ∉ name.toList ∧ '\x00' ∉ name.toList ∧ name ≠ "." ∧ name ≠ "..")
    ⟨fun ⟨h₁, h₂, h₃, h₄, h₅⟩ => ⟨h₁, h₂, h₃, h₄, h₅⟩,
      fun ⟨h₁, h₂, h₃, h₄, h₅⟩ => ⟨h₁, h₂, h₃, h₄, h₅⟩⟩

mutual

/-- Whether entries have names, distinct ones in every directory. -/
def isWellFormed : FileTree → Bool
  | .file _ => true
  | .directory entries => decide (entries.map Prod.fst).Nodup && areWellFormed entries

def areWellFormed : List (String × FileTree) → Bool
  | [] => true
  | (name, node) :: rest => decide (IsName name) && node.isWellFormed && areWellFormed rest

end

mutual

/-- The check for well-formed trees is right, by recursion over the tree. -/
theorem isWellFormed_iff : (tree : FileTree) → (tree.isWellFormed = true ↔ tree.WellFormed)
  | .file content => ⟨fun _ => .file content, fun _ => rfl⟩
  | .directory entries => by
    rw [isWellFormed, Bool.and_eq_true, decide_eq_true_eq, areWellFormed_iff entries]
    constructor
    · rintro ⟨hDistinct, hEntries⟩
      exact .directory hDistinct (fun e he => (hEntries e he).1) fun e he => (hEntries e he).2
    · rintro (_ | ⟨hDistinct, hNames, hNodes⟩)
      exact ⟨hDistinct, fun e he => ⟨hNames e he, hNodes e he⟩⟩

theorem areWellFormed_iff : (entries : List (String × FileTree)) →
    (areWellFormed entries = true ↔ ∀ e ∈ entries, IsName e.1 ∧ e.2.WellFormed)
  | [] => by simp [areWellFormed]
  | (name, node) :: rest => by
    rw [areWellFormed, Bool.and_eq_true, Bool.and_eq_true, decide_eq_true_eq,
      isWellFormed_iff node, areWellFormed_iff rest, List.forall_mem_cons]

end

instance (tree : FileTree) : Decidable tree.WellFormed :=
  decidable_of_iff _ (isWellFormed_iff tree)

/-- Every node of a well-formed tree is well-formed, and reached by names. -/
theorem WellFormed.at? {names : List String} {node : FileTree} (h : tree.WellFormed)
    (hNode : tree.at? names = some node) : node.WellFormed ∧ ∀ name ∈ names, IsName name := by
  induction names generalizing tree with
  | nil =>
    rw [at?_nil] at hNode
    cases hNode
    exact ⟨h, by simp⟩
  | cons name rest ih =>
    cases h with
    | file content => cases hNode
    | @directory entries hDistinct hNames hNodes =>
      rw [at?_directory_cons] at hNode
      obtain ⟨child, hChild, hRest⟩ := Option.bind_eq_some_iff.mp hNode
      have hMem := Entries.mem_of_lookup_eq_some hChild
      -- the induction is on the names, and each step goes to an entry, whose name and node are
      -- valid
      obtain ⟨hWell, hValid⟩ := ih (hNodes _ hMem) hRest
      exact ⟨hWell, List.forall_mem_cons.mpr ⟨hNames _ hMem, hValid⟩⟩

/-- A directory that is found in a well-formed tree is well-formed. -/
theorem WellFormed.entriesAt? {entries : List (String × FileTree)} (h : tree.WellFormed)
    (hEntries : tree.entriesAt? workingDirectory path = some entries) :
    (FileTree.directory entries).WellFormed := by
  obtain ⟨names, -, hNode⟩ := entriesAt?_eq_some_iff.mp hEntries
  exact (h.at? hNode).1

-- ---------------------------------------------------------------------------
-- The order of entries
-- ---------------------------------------------------------------------------

/-- The same tree, though directories may list their entries in another order. -/
inductive Reordered : FileTree → FileTree → Prop
  | file (content : ByteArray) : Reordered (.file content) (.file content)
  | directory {entries entries' : List (String × FileTree)}
    (hNames : (entries.map Prod.fst).Perm (entries'.map Prod.fst))
    (hNodes : ∀ name node node', (name, node) ∈ entries → (name, node') ∈ entries' →
      Reordered node node') :
    Reordered (.directory entries) (.directory entries')

/-- A tree is in its own order. -/
theorem Reordered.refl (h : tree.WellFormed) : Reordered tree tree := by
  induction h with
  | file content => exact .file content
  | @directory entries hDistinct _ _ ih =>
    refine .directory (.refl _) fun name node node' hNode hNode' => ?_
    -- names are distinct, so the two nodes of one name are one
    rw [← Entries.lookup_eq_some_iff_of_nodup hDistinct] at hNode hNode'
    obtain rfl := Option.some.inj (hNode.symm.trans hNode')
    exact ih (name, node) (Entries.mem_of_lookup_eq_some hNode)

/-- The entries of one directory may be listed in any order. -/
theorem Reordered.of_perm {entries entries' : List (String × FileTree)}
    (h : (FileTree.directory entries).WellFormed) (hPerm : entries.Perm entries') :
    Reordered (.directory entries) (.directory entries') := by
  cases Reordered.refl h with
  | directory _ hNodes =>
    exact .directory (hPerm.map Prod.fst) fun name node node' hNode hNode' =>
      hNodes name node node' hNode (hPerm.mem_iff.mpr hNode')

/-- The order of entries makes no difference to what is well-formed. -/
theorem Reordered.wellFormed (h : Reordered tree tree') (hTree : tree.WellFormed) :
    tree'.WellFormed := by
  induction h with
  | file content => exact .file content
  | @directory entries entries' hNames _ ih =>
    cases hTree with
    | directory hDistinct hValid hWell =>
      -- every entry afterwards has a partner of its name before
      have hFrom : ∀ e' ∈ entries', ∃ node, (e'.1, node) ∈ entries := by
        intro e' he'
        obtain ⟨e, he, hName⟩ := List.mem_map.mp (hNames.mem_iff.mpr (List.mem_map_of_mem he'))
        exact ⟨e.2, hName ▸ he⟩
      refine .directory (hNames.nodup_iff.mp hDistinct) (fun e' he' => ?_) fun e' he' => ?_
      · obtain ⟨node, hNode⟩ := hFrom e' he'
        exact hValid (e'.1, node) hNode
      · obtain ⟨node, hNode⟩ := hFrom e' he'
        exact ih _ node e'.2 hNode he' (hWell _ hNode)

/-- A name has the same entry in another order, if any. -/
theorem Reordered.lookup {entries entries' : List (String × FileTree)}
    (h : Reordered (.directory entries) (.directory entries')) (name : String) :
    Option.Rel Reordered (entries.lookup name) (entries'.lookup name) := by
  cases h with
  | directory hNames hNodes =>
    -- distinct names are not needed: the nodes found first correspond because all under one name do
    have hIsSome : ∀ entries : List (String × FileTree),
        (entries.lookup name).isSome = true ↔ name ∈ entries.map Prod.fst := by
      intro entries
      rw [List.lookup_isSome_iff, List.mem_map]
      exact exists_congr fun e => and_congr_right fun _ => beq_iff_eq.trans eq_comm
    have hSame : (entries.lookup name).isSome = (entries'.lookup name).isSome := by
      rw [Bool.eq_iff_iff, hIsSome, hIsSome, hNames.mem_iff]
    cases hNode : entries.lookup name with
    | none =>
      rw [hNode, Option.isSome_none] at hSame
      have hNone := Option.isNone_iff_eq_none.mp (Option.isSome_eq_false_iff.mp hSame.symm)
      rw [hNone]
      exact .none
    | some node =>
      rw [hNode, Option.isSome_some] at hSame
      obtain ⟨node', hNode'⟩ := Option.isSome_iff_exists.mp hSame.symm
      rw [hNode']
      exact .some (hNodes name node node' (Entries.mem_of_lookup_eq_some hNode)
        (Entries.mem_of_lookup_eq_some hNode'))

/-- Names lead to the same node, reordered. -/
theorem Reordered.at? (h : Reordered tree tree') (names : List String) :
    Option.Rel Reordered (tree.at? names) (tree'.at? names) := by
  induction names generalizing tree tree' with
  | nil =>
    rw [at?_nil, at?_nil]
    exact .some h
  | cons name rest ih =>
    cases h with
    | file content => exact .none
    | @directory entries entries' hNames hNodes =>
      -- both directories have an entry of the name, or neither has
      have hLookup := Reordered.lookup (.directory hNames hNodes) name
      rw [at?_directory_cons, at?_directory_cons]
      generalize entries.lookup name = child at hLookup ⊢
      generalize entries'.lookup name = child' at hLookup ⊢
      cases hLookup with
      | none => exact .none
      | some hChild => exact ih hChild

/-- Names lead to the same files in another order. -/
theorem Reordered.at?_eq_file_iff (h : Reordered tree tree') {names : List String}
    {content : ByteArray} :
    tree.at? names = some (.file content) ↔ tree'.at? names = some (.file content) := by
  have hAt := h.at? names
  generalize tree.at? names = node at hAt ⊢
  generalize tree'.at? names = node' at hAt ⊢
  cases hAt with
  | none => rfl
  | some hNode =>
    cases hNode with
    | file content' => rfl
    | directory => simp

/-- A walk comes to the same place in another order. -/
theorem Reordered.walk (h : Reordered tree tree') (parts here : List String) :
    tree'.walk here parts = tree.walk here parts := by
  induction parts generalizing here with
  | nil => rfl
  | cons part rest ih =>
    have hHere := h.at? here
    rw [FileTree.walk, FileTree.walk]
    generalize tree.at? here = node at hHere ⊢
    generalize tree'.at? here = node' at hHere ⊢
    cases hHere with
    | none => rfl
    | some hNode =>
      cases hNode with
      | file content => rfl
      | @directory entries entries' hNames hNodes =>
        -- the walk asks no more of a directory than whether it has the entry
        have hLookup := Reordered.lookup (.directory hNames hNodes) part
        have hSame : (entries'.lookup part).isSome = (entries.lookup part).isSome := by
          generalize entries.lookup part = child at hLookup ⊢
          generalize entries'.lookup part = child' at hLookup ⊢
          cases hLookup <;> rfl
        simp only [hSame, ih]

/-- A path that has entries has them in another order. -/
theorem Reordered.entriesAt? (h : Reordered tree tree') {entries : List (String × FileTree)}
    (hEntries : tree.entriesAt? workingDirectory path = some entries) :
    ∃ entries', tree'.entriesAt? workingDirectory path = some entries' ∧
      Reordered (.directory entries) (.directory entries') := by
  obtain ⟨names, hLocate, hNode⟩ := entriesAt?_eq_some_iff.mp hEntries
  -- walks look names up, which does not depend on the order of entries
  have hLocate' : tree'.locate workingDirectory path = .ok names := by
    rw [← hLocate, locate, locate]
    simp only [h.walk]
  have hAt := h.at? names
  rw [hNode] at hAt
  generalize hNode' : tree'.at? names = node' at hAt
  cases hAt with
  | some hReordered =>
    cases hReordered with
    | @directory _ entries' hNames hNodes =>
      exact ⟨entries', entriesAt?_eq_some_iff.mpr ⟨names, hLocate', hNode'⟩,
        .directory hNames hNodes⟩

-- ---------------------------------------------------------------------------
-- Paths
-- ---------------------------------------------------------------------------

/-- A slash separates parts. -/
theorem pathParts_append_slash (path more : String) :
    pathParts (path ++ "/" ++ more) = pathParts path ++ pathParts more := by
  have hSlash : (path ++ "/" ++ more).toList = path.toList ++ '/' :: more.toList := by simp
  rw [pathParts, hSlash, List.splitOn_eq_splitOnP, List.splitOnP_append_cons _ _ (by simp),
    List.map_append]
  rfl

theorem components_append_slash (path more : String) :
    components (path ++ "/" ++ more) = components path ++ components more := by
  rw [components, pathParts_append_slash, List.filter_append]
  rfl

/-- A path is continued after a slash, unless it is empty; one at its end will do for that. -/
theorem join_cases (path name : String) :
    path = "" ∧ join path name = name ∨
      (∃ before, path = before ++ "/" ++ "" ∧ join path name = before ++ "/" ++ name) ∨
      join path name = path ++ "/" ++ name := by
  rw [join]
  split
  · rename_i hEnd
    -- a path that ends in a slash is split at it, so that the parts of all three forms are told by
    -- `pathParts_append_slash`
    rcases (Bool.or_eq_true _ _).mp hEnd with hSlash | hPath
    · obtain ⟨before, hBefore⟩ := List.getLast?_eq_some_iff.mp (of_decide_eq_true hSlash)
      have hSplit : path = String.ofList before ++ "/" ++ "" := by
        apply String.toList_injective
        simpa using hBefore
      refine .inr (.inl ⟨String.ofList before, hSplit, ?_⟩)
      rw [hSplit]
      simp
    · refine .inl ⟨String.isEmpty_iff.mp hPath, ?_⟩
      rw [String.isEmpty_iff.mp hPath]
      simp
  · exact .inr (.inr rfl)

/-- A path continued by a name, or by several, has their components after its own. -/
theorem components_join (path name : String) :
    components (join path name) = components path ++ components name := by
  have hEmpty : components "" = [] := by decide
  obtain ⟨rfl, hJoin⟩ | ⟨before, rfl, hJoin⟩ | hJoin := join_cases path name
  · rw [hJoin, hEmpty, List.nil_append]
  · -- the slash that is there already ends the last part of the path
    rw [hJoin, components_append_slash, components_append_slash, hEmpty, List.append_nil]
  · rw [hJoin, components_append_slash]

/-- Names joined by slashes are the parts of a path. -/
theorem pathParts_intercalate {names : List String} (h : ∀ name ∈ names, IsName name)
    (hne : names ≠ []) : pathParts ("/".intercalate names) = names := by
  have hNoSlash : ∀ l ∈ names.map String.toList, '/' ∉ l := by
    intro l hl
    obtain ⟨name, hName, rfl⟩ := List.mem_map.mp hl
    exact (h name hName).noSlash
  have hSlash : "/".toList = ['/'] := rfl
  rw [pathParts, String.toList_intercalate, hSlash,
    List.splitOn_intercalate '/' hNoSlash (by simpa using hne), List.map_map]
  simp

/-- Names joined by slashes are components. -/
theorem components_intercalate {names : List String} (h : ∀ name ∈ names, IsName name) :
    components ("/".intercalate names) = names := by
  by_cases hNil : names = []
  · rw [hNil]
    decide
  · rw [components, pathParts_intercalate h hNil, List.filter_eq_self]
    intro name hName
    exact decide_eq_true ⟨(h name hName).nonempty, (h name hName).notHere⟩

end FileTree

end FoodScan
