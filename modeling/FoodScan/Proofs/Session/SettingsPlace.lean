import FoodScan.Proofs.FileTree.Growth
import FoodScan.Session

/-!
# The place of the settings file

In a plain environment (`Environment.IsPlain`) the path of the settings file leads from where it
starts to one place, whatever files there are (`IsPlain.find_eq_ok_iff`): what is written there is
what a later run reads. In an ordinary environment (`Environment.IsOrdinary`) it starts at the root,
wherever the run takes place (`IsOrdinary.find_eq_ok_iff`).
-/

namespace FoodScan

-- ---------------------------------------------------------------------------
-- The environment
-- ---------------------------------------------------------------------------

namespace Environment

open FileTree (components namesAmong pathLimit nameLimit Short IsName)

/-- An environment as it usually is: the directory for settings is given by an absolute path without
parts that lead up, and no name in the path of the settings file has too many bytes, nor has the
path. -/
structure IsOrdinary (env : Environment) : Prop where
  absolute : FileTree.isAbsolute env.configHome = true
  noNul : '\x00' ∉ env.configHome.toList
  noParent : ".." ∉ components env.configHome
  short : Short (components env.configHome)
  path : env.settingsPath.utf8ByteSize ≤ pathLimit

instance (env : Environment) : Decidable env.IsOrdinary :=
  decidable_of_iff
    (FileTree.isAbsolute env.configHome = true ∧ '\x00' ∉ env.configHome.toList ∧
      ".." ∉ components env.configHome ∧
      (∀ name ∈ components env.configHome, name.utf8ByteSize ≤ nameLimit) ∧
      env.settingsPath.utf8ByteSize ≤ pathLimit)
    ⟨fun ⟨h₁, h₂, h₃, h₄, h₅⟩ => ⟨h₁, h₂, h₃, h₄, h₅⟩,
      fun ⟨h₁, h₂, h₃, h₄, h₅⟩ => ⟨h₁, h₂, h₃, h₄, h₅⟩⟩

/-- An environment in which the path of the settings file only leads down, by names that are not too
long, nor is it itself. -/
structure IsPlain (env : Environment) : Prop where
  noParent : ".." ∉ components env.configHome
  short : Short (components env.configHome)
  path : env.settingsPath.utf8ByteSize ≤ pathLimit

/-- An ordinary path leads straight down to its place. -/
theorem IsOrdinary.isPlain {env : Environment} (h : env.IsOrdinary) : env.IsPlain :=
  ⟨h.noParent, h.short, h.path⟩

/-- The directory from which the path of the settings file starts. -/
def settingsOrigin (env : Environment) : List String :=
  FileTree.origin env.workingDirectory env.settingsDirectory

/-- A place is on the way to the directory of the settings file. -/
def OnTheWay (env : Environment) (tree : FileTree) (place : List String) : Prop :=
  tree.OnTheWay env.settingsOrigin (components env.settingsDirectory) place

/-- The names that lead from there to the directory of the settings file. -/
def settingsDirectoryPlace (env : Environment) : List String :=
  components env.configHome ++ [settingsNames.1]

/-- The names that lead from there to the settings file. -/
def settingsPlace (env : Environment) : List String :=
  env.settingsDirectoryPlace ++ [settingsNames.2]

/-- The directory of the settings is two names below the configuration home. -/
theorem components_settingsDirectory (env : Environment) :
    components env.settingsDirectory = env.settingsDirectoryPlace := by
  have hName : components settingsNames.1 = [settingsNames.1] := by decide
  rw [settingsDirectory, FileTree.components_join, hName, settingsDirectoryPlace]

theorem isName_settingsNames : IsName settingsNames.1 ∧ IsName settingsNames.2 := by decide

theorem settingsDirectory_ne_empty (env : Environment) : env.settingsDirectory ≠ "" := by
  intro hEmpty
  have hNames := env.components_settingsDirectory
  have hNone : components "" = [] := by decide
  rw [hEmpty, hNone, settingsDirectoryPlace] at hNames
  simp at hNames

/-- Only the configuration home can bring a NUL into the path. -/
theorem nul_not_mem_settingsDirectory_iff (env : Environment) :
    '\x00' ∉ env.settingsDirectory.toList ↔ '\x00' ∉ env.configHome.toList := by
  have hName := isName_settingsNames.1.noNul
  rw [settingsDirectory, FileTree.nul_mem_join_iff, not_or, and_iff_left hName]

/-- The settings file is refused no more than its directory, as long as its path is not too long. -/
theorem refusal?_settingsPath {env : Environment} (hNul : '\x00' ∉ env.settingsDirectory.toList)
    (hPath : env.settingsPath.utf8ByteSize ≤ pathLimit) :
    FileTree.refusal? env.settingsPath = none := by
  have hPathNul : '\x00' ∉ env.settingsPath.toList := by
    rw [settingsPath, FileTree.nul_mem_join_iff]
    exact not_or.mpr ⟨hNul, isName_settingsNames.2.noNul⟩
  exact FileTree.refusal?_eq_none_iff.mpr
    ⟨hPathNul, FileTree.join_ne_empty env.settingsDirectory_ne_empty _, hPath⟩

namespace IsPlain

variable {env : Environment} (h : env.IsPlain)
include h

theorem noParent_settingsDirectory : ".." ∉ components env.settingsDirectory := by
  rw [components_settingsDirectory, settingsDirectoryPlace, List.mem_append]
  exact not_or.mpr ⟨h.noParent, by decide⟩

theorem short_settingsDirectory : Short (components env.settingsDirectory) := by
  have hDirectory : settingsNames.1.utf8ByteSize ≤ nameLimit := by decide
  rw [components_settingsDirectory, settingsDirectoryPlace, FileTree.short_append_singleton_iff]
  exact ⟨h.short, hDirectory⟩

theorem directoryPath : env.settingsDirectory.utf8ByteSize ≤ pathLimit := by
  refine le_trans ?_ h.path
  rw [settingsPath, FileTree.join]
  split <;> simp only [String.utf8ByteSize_append] <;> omega

/-- **What is found** at the path of the settings file is what is in its place. -/
theorem find_eq_ok_iff {tree : FileTree} {workingDirectory : List String} {node : FileTree}
    (hNul : '\x00' ∉ env.settingsDirectory.toList) :
    tree.find workingDirectory env.settingsPath = .ok node ↔
      tree.at? (FileTree.origin workingDirectory env.settingsDirectory ++ env.settingsPlace) =
        some node := by
  have hFile : settingsNames.2.utf8ByteSize ≤ nameLimit := by decide
  obtain ⟨parts, hParts, hNames⟩ :=
    FileTree.pathParts_join env.settingsDirectory isName_settingsNames.2
  have hUp := h.noParent_settingsDirectory
  have hShort := h.short_settingsDirectory
  rw [← hNames] at hUp hShort
  rw [FileTree.find_eq_ok_iff, FileTree.locate_of_refusal? (refusal?_settingsPath hNul h.path),
    settingsPath, FileTree.origin_join env.settingsDirectory_ne_empty, hParts,
    FileTree.walk_down_iff hUp hShort isName_settingsNames.2 hFile, hNames,
    components_settingsDirectory]
  rfl

/-- Settings that were loaded are not in the place of a directory. -/
theorem not_directory_of_load {tree : FileTree} {settings : Settings}
    (hNul : '\x00' ∉ env.settingsDirectory.toList)
    (hSettings : Settings.load tree env.workingDirectory env.settingsPath = .ok settings)
    (entries : List (String × FileTree)) :
    tree.at? (env.settingsOrigin ++ env.settingsPlace) ≠ some (.directory entries) := by
  intro hDirectory
  have hFind := (h.find_eq_ok_iff hNul).mpr hDirectory
  rw [Settings.load, FileTree.hasAny, FileTree.readText, hFind] at hSettings
  cases hSettings

end IsPlain

namespace IsOrdinary

variable {env : Environment} (h : env.IsOrdinary)
include h

/-- The path of the settings file starts at the root. -/
theorem origin_settingsDirectory (workingDirectory : List String) :
    FileTree.origin workingDirectory env.settingsDirectory = [] := by
  have hHome : env.configHome ≠ "" := by
    intro hEmpty
    have hAbsolute := h.absolute
    rw [hEmpty] at hAbsolute
    cases hAbsolute
  rw [settingsDirectory, FileTree.origin_join hHome, FileTree.origin, if_pos h.absolute]

theorem noNul_settingsDirectory : '\x00' ∉ env.settingsDirectory.toList :=
  env.nul_not_mem_settingsDirectory_iff.mpr h.noNul

/-- **What is found** at the path of the settings file is what is in its place. -/
theorem find_eq_ok_iff {tree : FileTree} {workingDirectory : List String} {node : FileTree} :
    tree.find workingDirectory env.settingsPath = .ok node ↔
      tree.at? env.settingsPlace = some node := by
  rw [h.isPlain.find_eq_ok_iff h.noNul_settingsDirectory, h.origin_settingsDirectory,
    List.nil_append]

/-- **The settings of a run** are those of the text in their place, or the defaults if there is
nothing. -/
theorem load_eq_ok_iff {tree : FileTree} {workingDirectory : List String} {settings : Settings} :
    Settings.load tree workingDirectory env.settingsPath = .ok settings ↔
      tree.at? env.settingsPlace = none ∧ settings = {} ∨
      ∃ content text, tree.at? env.settingsPlace = some (.file content) ∧
        String.fromUTF8? content = some text ∧ Settings.decode text = .ok settings := by
  have hFind : ∀ node, tree.find workingDirectory env.settingsPath = .ok node ↔
      tree.at? env.settingsPlace = some node := fun _ => h.find_eq_ok_iff
  rw [Settings.load, FileTree.hasAny]
  cases hNode : tree.find workingDirectory env.settingsPath with
  | error fault =>
    have hNone : tree.at? env.settingsPlace = none := by
      cases hPlace : tree.at? env.settingsPlace with
      | none => rfl
      | some node => cases hNode.symm.trans ((hFind node).mpr hPlace)
    simp [hNone, eq_comm]
  | ok node =>
    have hPlace := (hFind node).mp hNode
    rw [hPlace]
    cases hText : tree.readText workingDirectory env.settingsPath with
    | error fault =>
      -- what is there is a directory or no text, and neither gives settings
      have hNoText : ∀ content text, node = .file content →
          String.fromUTF8? content ≠ some text := by
        rintro content text rfl hContent
        cases hText.symm.trans (FileTree.readText_eq_ok_iff.mpr ⟨content, hNode, hContent⟩)
      simpa using fun content hFile text hContent => absurd hContent (hNoText content text hFile)
    | ok text =>
      obtain ⟨content, hFile, hContent⟩ := FileTree.readText_eq_ok_iff.mp hText
      cases hNode.symm.trans hFile
      simp [hContent, mapError_eq_ok_iff]

end IsOrdinary

end Environment

end FoodScan
