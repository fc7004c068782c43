import FoodScan.Proofs.Session.Runs
import FoodScan.Proofs.Settings.Arguments
import FoodScan.Proofs.Settings.Changes
import FoodScan.Proofs.Settings.RoundTrip

/-!
# Settings over many runs

Each run is a process of its own that reads what an earlier one wrote. What one command for settings
does is `step_run`; that the settings read afterwards are those that it printed carries over to any
number of commands. Main result: `settings_over_time`.
-/

namespace FoodScan.Session

variable {env : Environment} {tree : FileTree} {args : List String} {settings : Settings}
  {change : Settings.Change}

-- ---------------------------------------------------------------------------
-- What a file of settings says
-- ---------------------------------------------------------------------------

section Loading

variable (hEnv : env.IsOrdinary)
include hEnv

theorem load_of_absent (hNone : tree.at? env.settingsPlace = none)
    (workingDirectory : List String) :
    Settings.load tree workingDirectory env.settingsPath = .ok {} :=
  hEnv.load_eq_ok_iff.mpr (.inl ⟨hNone, rfl⟩)

/-- With a file the settings are those that its text decodes to. -/
theorem load_of_text {text : String}
    (hFile : tree.at? env.settingsPlace = some (.file text.toUTF8))
    (workingDirectory : List String) :
    Settings.load tree workingDirectory env.settingsPath = .ok settings ↔
      Settings.decode text = .ok settings := by
  have hText : String.fromUTF8? text.toUTF8 = some text := dif_pos text.isValidUTF8
  rw [hEnv.load_eq_ok_iff, hFile]
  constructor
  · rintro (⟨hNone, -⟩ | ⟨content, text', hContent, hText', hDecode⟩)
    · cases hNone
    · cases hContent
      cases hText.symm.trans hText'
      exact hDecode
  · exact fun hDecode => .inr ⟨_, text, rfl, hText, hDecode⟩

/-- Where a run takes place makes no difference to its settings. -/
theorem load_elsewhere {workingDirectory : List String}
    (h : Settings.load tree workingDirectory env.settingsPath = .ok settings)
    (elsewhere : List String) : Settings.load tree elsewhere env.settingsPath = .ok settings :=
  hEnv.load_eq_ok_iff.mpr (hEnv.load_eq_ok_iff.mp h)

/-- Settings that were saved are read again. -/
theorem SettingsSaved.load {tree' : FileTree} (h : SettingsSaved [] env settings tree tree')
    (workingDirectory : List String) :
    Settings.load tree' workingDirectory env.settingsPath = .ok settings :=
  (load_of_text hEnv h.content workingDirectory).mpr (Settings.decode_render settings)

end Loading

/-- After settings were saved, no file is in the way of their directory. -/
theorem SettingsSaved.not_blocked {tree' : FileTree}
    (h : SettingsSaved [] env settings tree tree') :
    ¬ tree'.Blocked env.settingsDirectoryPlace := by
  rintro ⟨way, content, hWay, hFile⟩
  obtain ⟨entries, hDirectory⟩ := h.exists_directory hWay
  cases hFile.symm.trans hDirectory

-- ---------------------------------------------------------------------------
-- One command
-- ---------------------------------------------------------------------------

/-- The arguments are those of the command for settings, with a change that may give nothing. -/
def AsksForSettings (args : List String) (change : Settings.Change) : Prop :=
  ∃ verbosity noColor, CommandLine.parse args = .ok ⟨verbosity, noColor, .settings change⟩

/-- What one command for settings does: it succeeds unless a change cannot be saved, and then prints
the settings that the next run will read. -/
structure Step (env : Environment) (tree : FileTree) (settings : Settings)
    (change : Settings.Change) (r : Run) : Prop where
  code : r.code = 0 ↔ change.isChange = false ∨ ¬ tree.Blocked env.settingsDirectoryPlace
  blocked : r.tree.Blocked env.settingsDirectoryPlace ↔ tree.Blocked env.settingsDirectoryPlace
  printed : r.code = 0 → r.stdout = shownSettings env (settings.changed change)
  saved : r.code = 0 →
    Settings.load r.tree env.workingDirectory env.settingsPath = .ok (settings.changed change)

/-- **One command.** -/
theorem step_run (hEnv : env.IsOrdinary)
    (hSettings : Settings.load tree env.workingDirectory env.settingsPath = .ok settings)
    (hArgs : AsksForSettings args change) : Step env tree settings change (run env tree args) := by
  obtain ⟨verbosity, noColor, hParse⟩ := hArgs
  cases hChange : change.isChange with
  | false =>
    rw [run_settings_keep hSettings hChange hParse]
    refine ⟨by simp [Run.finished, hChange], .rfl, fun _ => rfl, fun _ => ?_⟩
    rw [Settings.changed_of_isChange_eq_false settings hChange]
    exact hSettings
  | true =>
    rcases run_settings_change hSettings hEnv hChange hParse with
      ⟨tree', hRun, hSaved⟩ | ⟨failure, hRun, hBlocked⟩
    · -- settings that were saved had nothing in the way, and have nothing in the way afterwards
      have hFree : ¬ tree.Blocked env.settingsDirectoryPlace := hSaved.free
      rw [hRun]
      exact ⟨by simp [Run.finished, hFree], iff_of_false hSaved.not_blocked hFree, fun _ => rfl,
        fun _ => hSaved.load hEnv env.workingDirectory⟩
    · rw [hRun]
      exact ⟨by simp [Run.failed, hChange, hBlocked], .rfl,
        fun hCode => absurd hCode Nat.one_ne_zero, fun hCode => absurd hCode Nat.one_ne_zero⟩

/-- Without a change, no file is touched, whatever the settings file says. -/
theorem tree_of_keep (hArgs : AsksForSettings args change) (hKeep : change.isChange = false) :
    (run env tree args).tree = tree := by
  obtain ⟨verbosity, noColor, hParse⟩ := hArgs
  cases hSettings : Settings.load tree env.workingDirectory env.settingsPath with
  | error e => rw [run_of_settings_error hParse hSettings]; rfl
  | ok settings => rw [run_settings_keep hSettings hKeep hParse]; rfl

-- ---------------------------------------------------------------------------
-- Many commands
-- ---------------------------------------------------------------------------

/-- Runs one after the other, each on the files that the one before left. -/
def runs (env : Environment) : FileTree → List (List String) → List Run
  | _, [] => []
  | tree, args :: rest => run env tree args :: runs env (run env tree args).tree rest

/-- The files after runs. -/
def treeAfter (env : Environment) (tree : FileTree) (commands : List (List String)) : FileTree :=
  commands.foldl (fun tree args => (run env tree args).tree) tree

section Many

variable {commands : List (List String)} {changes : List Settings.Change}
  (hEnv : env.IsOrdinary)
include hEnv

/-- Commands succeed all together: what is in the way of one change is in the way of all. -/
theorem runs_succeed_iff
    (hSettings : Settings.load tree env.workingDirectory env.settingsPath = .ok settings)
    (hCommands : List.Forall₂ AsksForSettings commands changes) :
    (∀ r ∈ runs env tree commands, r.code = 0) ↔
      (∀ change ∈ changes, change.isChange = false) ∨
        ¬ tree.Blocked env.settingsDirectoryPlace := by
  induction hCommands generalizing tree settings with
  | nil => simp [runs]
  | @cons args change commands changes hArgs _ ih =>
    have hStep := step_run hEnv hSettings hArgs
    rw [runs, List.forall_mem_cons, List.forall_mem_cons]
    -- whether a file is in the way is the same after a step, so the first step decides for all
    by_cases hFree : change.isChange = false ∨ ¬ tree.Blocked env.settingsDirectoryPlace
    · have hCode := hStep.code.mpr hFree
      rw [ih (hStep.saved hCode), hStep.blocked, and_iff_right hCode]
      rcases hFree with hKeep | hFree
      · rw [and_iff_right hKeep]
      · exact iff_of_true (.inr hFree) (.inr hFree)
    · obtain ⟨hChange, hBlocked⟩ := not_or.mp hFree
      refine iff_of_false (fun h => hFree (hStep.code.mp h.1)) ?_
      exact not_or.mpr ⟨fun h => hChange h.1, hBlocked⟩

/-- **Many commands**, by induction: each starts from what the one before left. -/
theorem load_treeAfter
    (hSettings : Settings.load tree env.workingDirectory env.settingsPath = .ok settings)
    (hCommands : List.Forall₂ AsksForSettings commands changes)
    (hCodes : ∀ r ∈ runs env tree commands, r.code = 0) :
    Settings.load (treeAfter env tree commands) env.workingDirectory env.settingsPath =
      .ok (settings.latest changes) := by
  induction hCommands generalizing tree settings with
  | nil => exact hSettings
  | @cons args change commands changes hArgs _ ih =>
    obtain ⟨hCode, hCodes⟩ := List.forall_mem_cons.mp hCodes
    rw [Settings.latest_cons]
    exact ih ((step_run hEnv hSettings hArgs).saved hCode) hCodes

/-- The last of some successful runs prints what all changes together came to. -/
theorem stdout_of_getLast?
    (hSettings : Settings.load tree env.workingDirectory env.settingsPath = .ok settings)
    (hCommands : List.Forall₂ AsksForSettings commands changes)
    (hCodes : ∀ r ∈ runs env tree commands, r.code = 0) {r : Run}
    (hLast : (runs env tree commands).getLast? = some r) :
    r.stdout = shownSettings env (settings.latest changes) := by
  induction hCommands generalizing tree settings with
  | nil => cases hLast
  | @cons args change commands changes hArgs hRest ih =>
    obtain ⟨hCode, hCodes⟩ := List.forall_mem_cons.mp hCodes
    have hStep := step_run hEnv hSettings hArgs
    rw [Settings.latest_cons]
    -- only the last run is printed, but it prints what all changes before it came to
    cases hRest with
    | nil =>
      cases hLast
      exact hStep.printed hCode
    | cons hArgs' hRest' =>
      rw [runs, runs, List.getLast?_cons_cons] at hLast
      exact ih (hStep.saved hCode) hCodes hLast

end Many

-- ---------------------------------------------------------------------------
-- Commands that load records
-- ---------------------------------------------------------------------------

/-- The commands that load records of a source load those of the configuration that it makes with
settings, whatever else their arguments say. -/
structure LoadsWith (env : Environment) (tree : FileTree) (settings : Settings)
    (source : SourceOptions) : Prop where
  validate : ∀ args verbosity noColor,
    CommandLine.parse args = .ok ⟨verbosity, noColor, .validate source⟩ →
    run env tree args =
      match loadRecords tree env.workingDirectory (settings.configOf source) with
      | .error e => .failed tree (.ofLoad e)
      | .ok records =>
        .finished tree
          (toString records.length ++ " records in " ++ source.directory ++ " are valid\n")
          (loadLog verbosity (settings.configOf source) records)
  showRecords : ∀ args verbosity noColor json,
    CommandLine.parse args = .ok ⟨verbosity, noColor, .showRecords source json⟩ →
    run env tree args =
      match loadRecords tree env.workingDirectory (settings.configOf source) with
      | .error e => .failed tree (.ofLoad e)
      | .ok records =>
        .finished tree (shownRecords (settings.color && !noColor) json records)
          (loadLog verbosity (settings.configOf source) records)
  query : ∀ args verbosity noColor text mode json,
    CommandLine.parse args = .ok ⟨verbosity, noColor, .query source text mode json⟩ →
    run env tree args =
      match readQuery env tree mode text with
      | .error failure => .failed tree failure
      | .ok query =>
        match loadRecords tree env.workingDirectory (settings.configOf source) with
        | .error e => .failed tree (.ofLoad e)
        | .ok records =>
          .finished tree (shownOutcome (settings.color && !noColor) json (query.collect records))
            (loadLog verbosity (settings.configOf source) records ++
              queryLog verbosity query records (query.collect records) ++
              shownWarnings (settings.color && !noColor) json (query.collect records))

/-- Every command loads records by the settings that the file holds. -/
theorem loadsWith_of_load
    (hSettings : Settings.load tree env.workingDirectory env.settingsPath = .ok settings)
    (source : SourceOptions) : LoadsWith env tree settings source where
  validate _ _ _ hArgs := by
    have hRun := run_validate hSettings hArgs
    rw [Settings.apply_config] at hRun
    exact hRun
  showRecords _ _ _ _ hArgs := by
    have hRun := run_showRecords hSettings hArgs
    rw [Settings.apply_config] at hRun
    exact hRun
  query _ _ _ _ _ _ hArgs := by
    have hRun := run_query hSettings hArgs
    rw [Settings.apply_config] at hRun
    exact hRun

-- ---------------------------------------------------------------------------
-- Settings over time
-- ---------------------------------------------------------------------------

/-- **Settings over time.** In an ordinary environment, from a start at which settings can be read,
whatever commands for settings follow each other:

1. all of them succeed, unless one asks for a change and a file is in the way at the start;
2. then the last one prints the settings that every later run reads, wherever it takes place. Each
   setting is what the last command to give it gave, or what it was at the start (`latest`), and
   what is printed and kept reads back as these settings;
3. a later command that loads records takes its own schema, else the one of the settings, else the
   bundled one, and descends into subdirectories if itself or the settings say so (`configOf`);
   settings that were applied already change nothing more;
4. a command that asks for no change leaves every file as it is, be there settings or not;
5. every change can be asked for by an option for each setting that it gives, whatever the path that
   it sets, unless that is empty;
6. settings can be read if there is no file for them, and from a JSON object in it just if its
   members give them, in any order and among others (`Gives`). -/
theorem settings_over_time (hEnv : env.IsOrdinary) {initial : Settings}
    {commands : List (List String)} {changes : List Settings.Change}
    (hInitial : Settings.load tree env.workingDirectory env.settingsPath = .ok initial)
    (hCommands : List.Forall₂ AsksForSettings commands changes) :
    ((∀ r ∈ runs env tree commands, r.code = 0) ↔
      (∀ change ∈ changes, change.isChange = false) ∨
        ¬ tree.Blocked env.settingsDirectoryPlace) ∧
    ((∀ r ∈ runs env tree commands, r.code = 0) →
      (∀ r, (runs env tree commands).getLast? = some r →
        r.stdout = "Settings file: " ++ env.settingsPath ++ "\n" ++
          (initial.latest changes).render ++ "\n") ∧
      Settings.decode (initial.latest changes).render = .ok (initial.latest changes) ∧
      ∀ workingDirectory,
        Settings.load (treeAfter env tree commands) workingDirectory env.settingsPath =
          .ok (initial.latest changes) ∧
        ∀ source, LoadsWith { env with workingDirectory } (treeAfter env tree commands)
          (initial.latest changes) source) ∧
    (∀ (settings : Settings) (config : Config),
      settings.apply (settings.apply config) = settings.apply config) ∧
    (∀ tree args change, AsksForSettings args change → change.isChange = false →
      (run env tree args).tree = tree) ∧
    (∀ change : Settings.Change, change.schema ≠ .set "" →
      AsksForSettings ("settings" :: change.arguments) change) ∧
    ∀ tree workingDirectory,
      (tree.at? env.settingsPlace = none →
        Settings.load tree workingDirectory env.settingsPath = .ok {}) ∧
      ∀ text members settings, tree.at? env.settingsPlace = some (.file text.toUTF8) →
        Json.readRaw text = .ok (.object members) →
        (Settings.load tree workingDirectory env.settingsPath = .ok settings ↔
          Settings.Gives members settings) := by
  refine ⟨runs_succeed_iff hEnv hInitial hCommands, fun hCodes => ⟨?_, ?_, fun elsewhere => ?_⟩,
    Settings.apply_apply, fun tree args change => tree_of_keep,
    fun change hPath => ⟨0, false, Settings.parse_arguments hPath⟩, fun tree elsewhere => ⟨?_, ?_⟩⟩
  · exact fun r hLast => stdout_of_getLast? hEnv hInitial hCommands hCodes hLast
  · exact Settings.decode_render _
  · -- the path of the settings does not depend on where a run is started
    have hLater := load_elsewhere hEnv (load_treeAfter hEnv hInitial hCommands hCodes) elsewhere
    exact ⟨hLater, loadsWith_of_load hLater⟩
  · exact fun hNone => load_of_absent hEnv hNone elsewhere
  · intro text members settings hFile hMembers
    rw [load_of_text hEnv hFile, Settings.decode_eq_ok_iff hMembers]

/-- Settings with one that is unknown, changed twice and then looked at. -/
theorem settings_over_time_of_unknown_setting :
    let env : Environment := ⟨["work"], "/config"⟩
    let text := "\x7b\"color\": false, \"theme\": [1], \"schema_path\": \"a.json\"\x7d"
    let tree : FileTree := .directory
      [("config", .directory [("mdframe", .directory [("config.json", .file text.toUTF8)])]),
        ("work", .directory [])]
    let commands := [["settings", "--recursive", "true"],
      ["settings", "--schema=\u00e9\n\"", "--color=true"], ["settings"]]
    env.IsOrdinary ∧ (∀ r ∈ runs env tree commands, r.code = 0) ∧
      Settings.load (treeAfter env tree commands) [] env.settingsPath =
        .ok ⟨some "\u00e9\n\"", true, true⟩ := by
  intro env text tree commands
  have hEnv : env.IsOrdinary := by decide
  have hInitial : Settings.load tree env.workingDirectory env.settingsPath =
      .ok ⟨some "a.json", false, false⟩ := by decide +kernel
  have hCommands : List.Forall₂ AsksForSettings commands
      [⟨.keep, some true, none⟩, ⟨.set "\u00e9\n\"", none, some true⟩, ⟨.keep, none, none⟩] :=
    .cons ⟨0, false, by decide +kernel⟩ (.cons ⟨0, false, by decide +kernel⟩
      (.cons ⟨0, false, by decide +kernel⟩ .nil))
  have hPlace : env.settingsDirectoryPlace = ["config", "mdframe"] := by decide
  have hFree : ¬ tree.Blocked env.settingsDirectoryPlace := by
    rw [hPlace]
    exact FileTree.not_blocked_of_directory rfl
  obtain ⟨hSucceed, hAfter, -⟩ := settings_over_time hEnv hInitial hCommands
  have hCodes := hSucceed.mpr (.inr hFree)
  exact ⟨hEnv, hCodes, ((hAfter hCodes).2.2 []).1⟩

end FoodScan.Session
