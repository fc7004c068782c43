import FoodScan.Discovery
import FoodScan.Proofs.FileTree

/-!
# Paths below a directory

A path that leads to a directory and goes on with names leads to the node that the names lead to
from there, as long as neither the path nor a name is too long (`WithinLimits`); else it leads
nowhere, whatever is there (`find_pathBelow`).
-/

namespace FoodScan

namespace FileTree

variable {tree : FileTree} {workingDirectory base : List String} {directory name : String}

-- ---------------------------------------------------------------------------
-- Walking on
-- ---------------------------------------------------------------------------

/-- One part is walked after the other. -/
theorem walk_append (tree : FileTree) (here parts more : List String) :
    tree.walk here (parts ++ more) =
      (tree.walk here parts >>= fun there => tree.walk there more) := by
  induction parts generalizing here with
  | nil => rfl
  | cons part rest ih =>
    rw [List.cons_append, walk, walk]
    -- a walk stops at the same part whether or not more come behind it, so only the branches that
    -- go on use the induction
    cases tree.at? here with
    | none => rfl
    | some node =>
      cases node with
      | file content => rfl
      | directory entries =>
        dsimp only
        split
        · exact ih here
        · split
          · exact ih here.dropLast
          · split
            · rfl
            · split
              · exact ih (here ++ [part])
              · rfl

/-- What the parts of a path behind a slash lead to. -/
theorem walk_join {here : List String} (hne : directory ≠ "")
    (hBase : tree.walk here (pathParts directory) = .ok base) (name : String) :
    tree.walk here (pathParts (join directory name)) = tree.walk base (pathParts name) := by
  have hEmpty : pathParts "" = [""] := by decide
  obtain ⟨rfl, -⟩ | ⟨before, rfl, hJoin⟩ | hJoin := join_cases directory name
  · exact absurd rfl hne
  · -- the part behind a slash at the end is empty and leads nowhere
    rw [pathParts_append_slash, hEmpty, walk_append] at hBase
    obtain ⟨there, hThere, hLast⟩ := bind_eq_ok_iff.mp hBase
    have hStays : base = there := by
      rw [walk] at hLast
      split at hLast
      · rw [if_pos (.inl rfl), walk] at hLast
        exact (Except.ok.inj hLast).symm
      · cases hLast
      · cases hLast
    rw [hJoin, pathParts_append_slash, walk_append, hThere, hStays]
    rfl
  · rw [hJoin, pathParts_append_slash, walk_append, hBase]
    rfl

/-- A part of a path that leads down, as names do. -/
structure LeadsDown (part : String) : Prop where
  nonempty : part ≠ ""
  notHere : part ≠ "."
  notParent : part ≠ ".."

/-- The name of an entry leads down. -/
theorem IsName.leadsDown (h : IsName name) : LeadsDown name := ⟨h.nonempty, h.notHere, h.notParent⟩

/-- **One step down.** In a directory, a part that leads down is looked up. -/
theorem walk_cons_of_leadsDown {here rest : List String} {entries : List (String × FileTree)}
    (hHere : tree.at? here = some (.directory entries)) (hName : LeadsDown name) :
    tree.walk here (name :: rest) =
      if nameLimit < name.utf8ByteSize then .error .nameTooLong
      else if (entries.lookup name).isSome then tree.walk (here ++ [name]) rest
      else .error .notFound := by
  rw [walk, hHere]
  dsimp only
  rw [if_neg (not_or.mpr ⟨hName.nonempty, hName.notHere⟩), if_neg hName.notParent]

/-- Names that are there are walked to the end, unless one of them is too long. -/
theorem walk_names {names : List String} (hNames : ∀ name ∈ names, LeadsDown name)
    (hNode : (tree.at? (base ++ names)).isSome = true) :
    tree.walk base names =
      if ∀ name ∈ names, name.utf8ByteSize ≤ nameLimit then .ok (base ++ names)
      else .error .nameTooLong := by
  induction names generalizing base with
  | nil => simp [walk]
  | cons name rest ih =>
    obtain ⟨hName, hRest⟩ := List.forall_mem_cons.mp hNames
    have hSplit : base ++ name :: rest = (base ++ [name]) ++ rest := by simp
    have hNext := ih hRest (hSplit ▸ hNode)
    rw [at?_append] at hNode
    cases hBase : tree.at? base with
    | none => simp [hBase] at hNode
    | some node =>
      cases node with
      | file content => simp [hBase, at?] at hNode
      | directory entries =>
        -- the entry is there, since what lies below it is, so only its length can stop the walk
        rw [hBase, Option.bind_some, at?_directory_cons] at hNode
        have hEntry := Option.isSome_of_isSome_bind hNode
        rw [walk_cons_of_leadsDown hBase hName]
        by_cases hShort : name.utf8ByteSize ≤ nameLimit
        · rw [if_neg (Nat.not_lt.mpr hShort), if_pos hEntry, hNext, hSplit]
          simp only [List.forall_mem_cons, hShort, true_and]
        · rw [if_pos (Nat.not_le.mp hShort), if_neg]
          exact fun hAll => hShort (hAll name List.mem_cons_self)

-- ---------------------------------------------------------------------------
-- Paths
-- ---------------------------------------------------------------------------

/-- A path does not become empty by going on. -/
theorem join_ne_empty (hne : directory ≠ "") (name : String) : join directory name ≠ "" := by
  rw [join]
  split <;> simp [hne]

/-- A path leads on from where the directory does that it continues. -/
theorem origin_join (hne : directory ≠ "") (workingDirectory : List String) (name : String) :
    origin workingDirectory (join directory name) = origin workingDirectory directory := by
  have hHead : ∀ more : List Char, (directory.toList ++ more).head? = directory.toList.head? := by
    intro more
    rw [List.head?_append_of_ne_nil]
    exact fun hNil => hne (String.toList_eq_nil_iff.mp hNil)
  have hAbsolute : isAbsolute (join directory name) = isAbsolute directory := by
    rw [isAbsolute, isAbsolute, join]
    split <;> simp only [String.toList_append, List.append_assoc, hHead]
  rw [origin, origin, hAbsolute]

/-- Joining adds no character that a path may not have. -/
theorem nul_mem_join_iff : '\x00' ∈ (join directory name).toList ↔
    '\x00' ∈ directory.toList ∨ '\x00' ∈ name.toList := by
  rw [join]
  split <;> simp

/-- The parts that are names. -/
def namesAmong (parts : List String) : List String :=
  parts.filter fun part => part ≠ "" ∧ part ≠ "."

/-- A part that leads nowhere is no component. -/
theorem namesAmong_cons_blank {part : String} (h : part = "" ∨ part = ".") (rest : List String) :
    namesAmong (part :: rest) = namesAmong rest :=
  List.filter_cons_of_neg fun hName => not_or.mpr (of_decide_eq_true hName) h

theorem namesAmong_cons_name {part : String} (h : ¬ (part = "" ∨ part = ".")) (rest : List String) :
    namesAmong (part :: rest) = part :: namesAmong rest :=
  List.filter_cons_of_pos (decide_eq_true (not_or.mp h))

/-- A path continued by a name: parts with the components of the path, then the name. -/
theorem pathParts_join (path : String) (hName : IsName name) :
    ∃ parts, pathParts (join path name) = parts ++ [name] ∧
      namesAmong parts = components path := by
  have hParts : pathParts name = [name] := by
    have hJoined := pathParts_intercalate (List.forall_mem_singleton.mpr hName)
      (List.cons_ne_nil name [])
    rwa [String.intercalate_singleton] at hJoined
  -- the three ways to join; in the second the path ends in a slash, and what comes behind it is
  -- blank
  obtain ⟨rfl, hJoin⟩ | ⟨before, rfl, hJoin⟩ | hJoin := join_cases path name
  · exact ⟨[], by rw [hJoin, hParts, List.nil_append], by decide⟩
  · have hEmpty : components "" = [] := by decide
    refine ⟨pathParts before, by rw [hJoin, pathParts_append_slash, hParts], ?_⟩
    rw [components_append_slash, hEmpty, List.append_nil]
    rfl
  · exact ⟨pathParts path, by rw [hJoin, pathParts_append_slash, hParts], rfl⟩

/-- **Parts that lead nowhere** may be left out on the way to a last part: that one needs a
directory to lead on from just as they do. -/
theorem walk_namesAmong (tree : FileTree) (here parts : List String) (last : String) :
    tree.walk here (parts ++ [last]) = tree.walk here (namesAmong parts ++ [last]) := by
  induction parts generalizing here with
  | nil => rfl
  | cons part rest ih =>
    by_cases hBlank : part = "" ∨ part = "."
    · rw [namesAmong_cons_blank hBlank, ← ih here, List.cons_append, walk]
      -- a blank part still needs a directory here, as the part behind it does
      obtain ⟨first, more, hMore⟩ : ∃ first more, rest ++ [last] = first :: more :=
        List.exists_cons_of_ne_nil (by simp)
      cases hHere : tree.at? here with
      | none => rw [hMore, walk, hHere]
      | some node =>
        cases node with
        | file content => rw [hMore, walk, hHere]
        | directory entries => exact if_pos hBlank
    · rw [namesAmong_cons_name hBlank, List.cons_append, List.cons_append, walk, walk]
      simp only [ih]

/-- Names do not hold the character that ends paths, nor do they joined. -/
theorem nul_not_mem_intercalate {names : List String} (h : ∀ name ∈ names, IsName name) :
    '\x00' ∉ ("/".intercalate names).toList := by
  induction names with
  | nil => decide
  | cons name rest ih =>
    obtain ⟨hName, hRest⟩ := List.forall_mem_cons.mp h
    cases rest with
    | nil => simpa using hName.noNul
    | cons second rest =>
      have hLater := ih hRest
      rw [String.toList_intercalate] at hLater ⊢
      simpa using ⟨hName.noNul, hLater⟩

/-- A path that leads somewhere is not refused. -/
theorem refusal?_of_locate (h : tree.locate workingDirectory directory = .ok base) :
    refusal? directory = none := by
  rw [locate] at h
  split at h
  · cases h
  · assumption

/-- A path that goes on from a directory, if it is not refused as a whole. -/
theorem locate_join (hBase : tree.locate workingDirectory directory = .ok base)
    (hNul : '\x00' ∉ name.toList) :
    tree.locate workingDirectory (join directory name) =
      if pathLimit < (join directory name).utf8ByteSize then .error .nameTooLong
      else tree.walk base (pathParts name) := by
  have hRefusal := refusal?_of_locate hBase
  obtain ⟨hDirectoryNul, hne, -⟩ := refusal?_eq_none_iff.mp hRefusal
  have hJoinNul : '\x00' ∉ (join directory name).toList := fun h =>
    (nul_mem_join_iff.mp h).elim hDirectoryNul hNul
  have hJoinEmpty := join_ne_empty hne name
  rw [locate_of_refusal? hRefusal] at hBase
  by_cases hShort : (join directory name).utf8ByteSize ≤ pathLimit
  · rw [if_neg (Nat.not_lt.mpr hShort),
      locate_of_refusal? (refusal?_eq_none_iff.mpr ⟨hJoinNul, hJoinEmpty, hShort⟩),
      origin_join hne, walk_join hne hBase]
  · have hLong := Nat.not_le.mp hShort
    rw [if_pos hLong, locate, refusal?, if_neg (fun h => hJoinNul (List.contains_iff_mem.mp h)),
      if_neg (fun h => hJoinEmpty (String.isEmpty_iff.mp h)), if_pos hLong]

end FileTree

open FileTree (IsName nameLimit pathLimit)

/-- Neither the path of names below a directory nor one of the names has more bytes than the file
system takes. -/
structure WithinLimits (directory : String) (names : List String) : Prop where
  path : (pathBelow directory names).utf8ByteSize ≤ pathLimit
  each : ∀ name ∈ names, name.utf8ByteSize ≤ nameLimit

instance (directory : String) (names : List String) : Decidable (WithinLimits directory names) :=
  decidable_of_iff ((pathBelow directory names).utf8ByteSize ≤ pathLimit ∧
    ∀ name ∈ names, name.utf8ByteSize ≤ nameLimit) ⟨fun h => ⟨h.1, h.2⟩, fun h => ⟨h.path, h.each⟩⟩

/-- **Below a directory.** What names lead to is found at the path below the directory, unless
something is too long; then nothing is found there. -/
theorem find_pathBelow {tree : FileTree} {workingDirectory names : List String}
    {directory : String} {entries : List (String × FileTree)} {node : FileTree}
    (hEntries : tree.entriesAt? workingDirectory directory = some entries)
    (hNode : (FileTree.directory entries).at? names = some node)
    (hNames : ∀ name ∈ names, IsName name) (hne : names ≠ []) :
    tree.find workingDirectory (pathBelow directory names) =
      if WithinLimits directory names then .ok node else .error .nameTooLong := by
  obtain ⟨base, hBase, hDirectory⟩ := FileTree.entriesAt?_eq_some_iff.mp hEntries
  have hAt : tree.at? (base ++ names) = some node := by
    rw [FileTree.at?_append, hDirectory, Option.bind_some, hNode]
  -- the path alone decides whether it is refused; what it leads to is known
  have hLocate : tree.locate workingDirectory (pathBelow directory names) =
      if WithinLimits directory names then .ok (base ++ names) else .error .nameTooLong := by
    rw [pathBelow, FileTree.locate_join hBase (FileTree.nul_not_mem_intercalate hNames),
      FileTree.pathParts_intercalate hNames hne, ← pathBelow,
      FileTree.walk_names (fun name hName => (hNames name hName).leadsDown)
        (Option.isSome_of_eq_some hAt)]
    by_cases hPath : (pathBelow directory names).utf8ByteSize ≤ pathLimit
    · rw [if_neg (Nat.not_lt.mpr hPath)]
      exact if_congr ⟨fun h => ⟨hPath, h⟩, fun h => h.each⟩ rfl rfl
    · rw [if_pos (Nat.not_le.mp hPath), if_neg fun h => hPath h.path]
  by_cases hLimits : WithinLimits directory names
  · rw [if_pos hLimits] at hLocate ⊢
    exact FileTree.find_eq_ok_iff.mpr ⟨base ++ names, hLocate, hAt⟩
  · rw [FileTree.find, hLocate, if_neg hLimits, if_neg hLimits]
    rfl

-- ---------------------------------------------------------------------------
-- Slashes
-- ---------------------------------------------------------------------------

section Slashes

variable {tree : FileTree} {workingDirectory : List String} {entries : List (String × FileTree)}

/-- A text of slashes. -/
def slashes (n : Nat) : String := String.ofList (List.replicate n '/')

theorem slashes_succ (n : Nat) : slashes (n + 1) = "" ++ "/" ++ slashes n := by
  apply String.toList_injective
  simp [slashes, List.replicate_succ]

theorem utf8ByteSize_slashes (n : Nat) : (slashes n).utf8ByteSize = n := by
  induction n with
  | zero => rfl
  | succ n ih =>
    have hSlash : ("" ++ "/").utf8ByteSize = 1 := by decide
    rw [slashes_succ, String.utf8ByteSize_append, ih, hSlash, add_comm]

/-- Behind slashes a name stands without another one. -/
theorem pathBelow_slashes (path name : String) (n : Nat) :
    pathBelow (path ++ slashes (n + 1)) [name] = path ++ slashes (n + 1) ++ name := by
  have hEnd : (path ++ slashes (n + 1)).toList.getLast? = some '/' := by
    simp [slashes, List.replicate_succ']
  rw [pathBelow, FileTree.join,
    if_pos ((Bool.or_eq_true _ _).mpr (.inl (decide_eq_true hEnd)))]
  rfl

/-- Slashes lead nowhere. -/
theorem walk_slashes {base : List String}
    (hDirectory : tree.at? base = some (.directory entries)) (n : Nat) :
    tree.walk base (FileTree.pathParts (slashes n)) = .ok base := by
  have hEmpty : tree.walk base (FileTree.pathParts "") = .ok base := by
    show tree.walk base [""] = .ok base
    rw [FileTree.walk, hDirectory]
    rfl
  induction n with
  | zero => exact hEmpty
  | succ n ih =>
    rw [slashes_succ, FileTree.pathParts_append_slash, FileTree.walk_append, hEmpty]
    exact ih

/-- The path of a directory may be as long as one likes, up to the limit: slashes behind it lead
nowhere. -/
theorem entriesAt?_slashes {path : String} (hEnd : path.toList.getLast? ≠ some '/')
    (hPath : tree.entriesAt? workingDirectory path = some entries) {n : Nat}
    (hLimit : path.utf8ByteSize + (n + 1) ≤ pathLimit) :
    tree.entriesAt? workingDirectory (path ++ slashes (n + 1)) = some entries := by
  obtain ⟨base, hBase, hDirectory⟩ := FileTree.entriesAt?_eq_some_iff.mp hPath
  have hne : path.isEmpty = false := by
    cases hEmpty : path.isEmpty with
    | false => rfl
    | true =>
      rw [String.isEmpty_iff.mp hEmpty] at hBase
      cases hBase
  -- the first slash joins, and those behind it are parts that lead nowhere
  have hJoin : path ++ slashes (n + 1) = FileTree.join path (slashes n) := by
    rw [slashes_succ, FileTree.join, if_neg (by simp [hEnd, hne]), String.empty_append,
      String.append_assoc]
  have hNul : '\x00' ∉ (slashes n).toList := by simp [slashes]
  have hShort : ¬ pathLimit < (FileTree.join path (slashes n)).utf8ByteSize := by
    rw [← hJoin, String.utf8ByteSize_append, utf8ByteSize_slashes]
    exact Nat.not_lt.mpr hLimit
  have hLocate : tree.locate workingDirectory (FileTree.join path (slashes n)) = .ok base := by
    rw [FileTree.locate_join hBase hNul, if_neg hShort, walk_slashes hDirectory]
  rw [hJoin]
  exact FileTree.entriesAt?_eq_some_iff.mpr ⟨base, hLocate, hDirectory⟩

end Slashes

end FoodScan
