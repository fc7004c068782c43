import FoodScan.Proofs.Session.Runs

/-!
# Failing runs leave at most directories

Whatever the command and the files, a run has one of a few effects (`Effect`, `effect_carryOut`).
Only a command that changes the settings changes a file, and none that fails does. But the directory
of the settings file is made before the file is written, and one that was made stays, with those
above it, when the run fails later: a schema path that is not text is found out too late, and so is
a name that is too long for a directory, or a file that comes after a part of the path that leads
up. Main result: `failing_runs_leave_only_directories`.
-/

namespace FoodScan

/-- A command changes the settings: it is the one for settings, with an option. -/
def Command.asksForChange : Command → Bool
  | .settings change => change.isChange
  | .settingsNotText => true
  | .showRecords .. => false
  | .query .. => false
  | .validate .. => false

namespace Session

variable {env : Environment} {tree : FileTree}

/-- What commands do: they print, or fail, or save settings, or give up on saving them. -/
inductive Effect (env : Environment) (tree : FileTree) (command : Command) : Run → Prop
  | failed (failure : Failure) : Effect env tree command (.failed tree failure)
  | printed (stdout stderr : String) (hKeep : command.asksForChange = false) :
      Effect env tree command (.finished tree stdout stderr)
  | saved {settings : Settings} {change : Settings.Change} {tree' : FileTree}
      (hCommand : command = .settings change) (hChange : change.isChange = true)
      (hSettings : Settings.load tree env.workingDirectory env.settingsPath = .ok settings)
      (hSaved : TextSaved env (settings.changed change).render tree tree') :
      Effect env tree command (.finished tree' (shownSettings env (settings.changed change)) "")
  | gaveUp (failure : Failure) {tree' : FileTree} (hAsks : command.asksForChange = true)
      (hMade : FileTree.OnlyChanges FileTree.Nowhere (env.OnTheWay tree') tree tree')
      (hPlain : env.IsPlain → command ≠ .settingsNotText → tree' = tree) :
      Effect env tree command (.failed tree' failure)

/-- Every command leaves the tree as it was, or adds directories, or writes the settings. -/
theorem effect_carryOut (env : Environment) (tree : FileTree) (call : Invocation) :
    Effect env tree call.command (carryOut env tree call) := by
  cases hSettings : Settings.load tree env.workingDirectory env.settingsPath with
  | error e =>
    rw [carryOut_of_settings_error hSettings]
    exact .failed _
  | ok settings =>
    obtain ⟨verbosity, noColor, command⟩ := call
    cases command with
    | showRecords source json =>
      rw [carryOut_showRecords hSettings]
      split
      · exact .failed _
      · exact .printed _ _ rfl
    | query source text mode json =>
      rw [carryOut_query hSettings]
      split
      · exact .failed _
      · split
        · exact .failed _
        · exact .printed _ _ rfl
    | validate source =>
      rw [carryOut_validate hSettings]
      split
      · exact .failed _
      · exact .printed _ _ rfl
    | settings change =>
      cases hChange : change.isChange with
      | false =>
        rw [carryOut_settings_keep hSettings hChange]
        exact .printed _ _ hChange
      | true =>
        rcases carryOut_change hSettings hChange verbosity noColor with
          ⟨tree', hRun, hSaved⟩ | ⟨failure, tree', hRun, hMade, hPlain⟩
        · rw [hRun]
          exact .saved rfl hChange hSettings hSaved
        · rw [hRun]
          exact .gaveUp failure hChange hMade fun hEnv _ => hPlain hEnv
    | settingsNotText =>
      obtain ⟨failure, tree', hRun, hMade⟩ := carryOut_settingsNotText hSettings verbosity noColor
      rw [hRun]
      exact .gaveUp failure rfl hMade fun _ hText => absurd rfl hText

namespace Effect

variable {command : Command} {finished : Run}

/-- A failure ends with code 1 and prints nothing; if it has made directories, it was on its way to
the settings file. -/
theorem of_failure (h : Effect env tree command finished) (hCode : finished.code ≠ 0) :
    finished.code = 1 ∧ finished.stdout = "" ∧
      FileTree.OnlyChanges FileTree.Nowhere (env.OnTheWay finished.tree) tree finished.tree ∧
      (env.IsPlain → command ≠ .settingsNotText → finished.tree = tree) := by
  cases h with
  | failed failure => exact ⟨rfl, rfl, .refl _ _ tree, fun _ _ => rfl⟩
  | printed stdout stderr hKeep => exact absurd rfl hCode
  | saved hCommand hChange hSettings hSaved => exact absurd rfl hCode
  | gaveUp failure hAsks hMade hPlain => exact ⟨rfl, rfl, hMade, hPlain⟩

/-- Without a change to make, everything stays as it is. -/
theorem tree_eq_of_keep (h : Effect env tree command finished)
    (hKeep : command.asksForChange = false) : finished.tree = tree := by
  cases h with
  | failed failure => rfl
  | printed stdout stderr hKeep => rfl
  | saved hCommand hChange hSettings hSaved =>
    rw [hCommand, Command.asksForChange, hChange] at hKeep
    cases hKeep
  | gaveUp failure hAsks hMade hPlain =>
    rw [hAsks] at hKeep
    cases hKeep

/-- A change that was made is in the settings file, and in no other. -/
theorem of_change (h : Effect env tree command finished) (hAsks : command.asksForChange = true)
    (hCode : finished.code = 0) :
    ∃ change settings place, command = .settings change ∧
      Settings.load tree env.workingDirectory env.settingsPath = .ok settings ∧
      finished.tree.locate env.workingDirectory env.settingsPath = .ok place ∧
      finished.tree.at? place = some (.file (settings.changed change).render.toUTF8) ∧
      FileTree.OnlyChanges (· = place) (env.OnTheWay finished.tree) tree finished.tree := by
  cases h with
  | failed failure => exact absurd hCode Nat.one_ne_zero
  | printed stdout stderr hKeep =>
    rw [hAsks] at hKeep
    cases hKeep
  | saved hCommand hChange hSettings hSaved =>
    obtain ⟨place, hPlace, hFile, hOthers⟩ := hSaved
    exact ⟨_, _, place, hCommand, hSettings, hPlace, hFile, hOthers⟩
  | gaveUp failure hAsks hMade hPlain => exact absurd hCode Nat.one_ne_zero

end Effect

/-- **Failing runs leave at most directories.** Whatever the environment and the files:

1. a command that fails ends with code 1 and prints nothing on standard output, be it for the
   settings, the query, the schema, the records or the way to the settings file. All files stay what
   they are and no directory goes. There may be new directories, on the way to the settings file,
   but not if the path of that only leads down, by names that are not too long, nor is it itself
   (`IsPlain`), unless the schema path that was given is not text: else everything is as it was;
2. a command that does not ask for a change of settings leaves everything as it is, whether it fails
   or not;
3. one that asks for a change and does not fail leaves the changed settings in their file. All other
   files stay what they are, no directory goes, and those that come are on the way to that file;
4. arguments that are a command do what the command does; others do not fail with code 1, and leave
   everything as it is. -/
theorem failing_runs_leave_only_directories (env : Environment) (tree : FileTree) :
    (∀ call, (carryOut env tree call).code ≠ 0 →
      (carryOut env tree call).code = 1 ∧ (carryOut env tree call).stdout = "" ∧
      FileTree.OnlyChanges FileTree.Nowhere (env.OnTheWay (carryOut env tree call).tree)
        tree (carryOut env tree call).tree ∧
      (env.IsPlain → call.command ≠ .settingsNotText → (carryOut env tree call).tree = tree)) ∧
    (∀ call, call.command.asksForChange = false → (carryOut env tree call).tree = tree) ∧
    (∀ call, call.command.asksForChange = true → (carryOut env tree call).code = 0 →
      ∃ change settings place, call.command = .settings change ∧
        Settings.load tree env.workingDirectory env.settingsPath = .ok settings ∧
        (carryOut env tree call).tree.locate env.workingDirectory env.settingsPath = .ok place ∧
        (carryOut env tree call).tree.at? place =
          some (.file (settings.changed change).render.toUTF8) ∧
        FileTree.OnlyChanges (· = place) (env.OnTheWay (carryOut env tree call).tree)
          tree (carryOut env tree call).tree) ∧
    ∀ args,
      match CommandLine.parse args with
      | .ok call => run env tree args = carryOut env tree call
      | .error _ => (run env tree args).code ≠ 1 ∧ (run env tree args).tree = tree := by
  refine ⟨fun call => (effect_carryOut env tree call).of_failure,
    fun call => (effect_carryOut env tree call).tree_eq_of_keep,
    fun call => (effect_carryOut env tree call).of_change, fun args => ?_⟩
  cases hArgs : CommandLine.parse args with
  | ok call => exact run_of_parse tree hArgs
  | error refusal =>
    rw [run, hArgs]
    cases refusal with
    | usage => exact ⟨Nat.succ_succ_ne_one 0, rfl⟩
    | help => exact ⟨Nat.zero_ne_one, rfl⟩

/-- A file in the way of the settings directory, and a way that is free but for a part that is
missing. -/
theorem failing_runs_leave_only_directories_of_file_in_the_way :
    let env : Environment := ⟨["work"], "/home/config"⟩
    let blocked : FileTree := .directory
      [("home", .directory [("config", .file "text".toUTF8)]), ("work", .directory [])]
    let free : FileTree := .directory [("home", .directory []), ("work", .directory [])]
    let call : Invocation := ⟨0, false, .settings ⟨.keep, some true, none⟩⟩
    env.IsPlain ∧ (carryOut env blocked call).code = 1 ∧
      (carryOut env blocked call).tree = blocked ∧ (carryOut env free call).code = 0 ∧
      ∃ place, (carryOut env free call).tree.locate env.workingDirectory env.settingsPath =
          .ok place ∧
        (carryOut env free call).tree.at? place =
          some (.file ({ recursive := true } : Settings).render.toUTF8) ∧
        ∀ content, (carryOut env free call).tree.at? ["work"] ≠ some (.file content) := by
  intro env blocked free call
  have hOrdinary : env.IsOrdinary := by decide
  have hEnv := hOrdinary.isPlain
  -- one tree has a file where a directory is needed, and the other has nothing there yet
  have hFails : (carryOut env blocked call).code = 1 := by decide +kernel
  have hSucceeds : (carryOut env free call).code = 0 := by decide +kernel
  obtain ⟨hFailed, -, -, -⟩ := failing_runs_leave_only_directories env blocked
  obtain ⟨-, -, hChanged, -⟩ := failing_runs_leave_only_directories env free
  obtain ⟨-, -, -, hSame⟩ := hFailed call (by rw [hFails]; decide)
  obtain ⟨change, settings, place, hCommand, hSettings, hPlace, hFile, hOthers⟩ :=
    hChanged call rfl hSucceeds
  cases hCommand
  have hDefault : Settings.load free env.workingDirectory env.settingsPath = .ok {} := by
    decide +kernel
  cases hDefault.symm.trans hSettings
  refine ⟨hEnv, hFails, hSame hEnv nofun, hSucceeds, place, hPlace, hFile, ?_⟩
  obtain ⟨entries, hWork⟩ := hOthers.kept ["work"] ⟨[], rfl⟩
  intro content hContent
  cases hWork.symm.trans hContent

/-- **Failing runs may leave directories**: those above the settings file that were missing, when
the schema path is not text, and when a file comes after a part of the path that leads up. -/
theorem failing_runs_leave_directories :
    let tree : FileTree := .directory [("file", .file ByteArray.empty), ("work", .directory [])]
    let args := ["settings", "--color", "true"]
    let plain : Environment := ⟨["work"], "/config"⟩
    let notText := carryOut plain tree ⟨0, false, .settingsNotText⟩
    let up := run ⟨["work"], "/new/../file/x"⟩ tree args
    (plain.IsOrdinary ∧ notText.code = 1 ∧ (tree.at? ["config"]).isSome = false ∧
      (notText.tree.at? ["config", "mdframe"]).isSome = true) ∧
    (up.code = 1 ∧ (tree.at? ["new"]).isSome = false ∧ (up.tree.at? ["new"]).isSome = true) := by
  decide +kernel

end Session

end FoodScan
