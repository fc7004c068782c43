import FoodScan.Proofs.Loading.AllOrNothing
import FoodScan.Proofs.Session.SettingsPlace

/-!
# What runs come to

An action takes a stage to a result and a later stage. The commands are followed through their
actions once, here: what each command comes to is said by an equation, `carryOut_showRecords`,
`carryOut_query`, `carryOut_validate` and `carryOut_settings_keep`, and for a command that writes by
`carryOut_change`; where the settings file has an ordinary path, `run_settings_change` says more. A
run does what the command of its arguments does (`run_of_parse`). One that fails has printed nothing
but its failure (`Run.failed`).
-/

namespace FoodScan

/-- A run that failed: the failure is all that it printed. -/
def Run.failed (tree : FileTree) (failure : Failure) : Run := ⟨1, "", failure.text, tree⟩

/-- A run that came to its end. -/
def Run.finished (tree : FileTree) (stdout stderr : String) : Run := ⟨0, stdout, stderr, tree⟩

namespace Session

variable {α β : Type} {env : Environment} {stage stage' : Stage}

-- ---------------------------------------------------------------------------
-- Actions
-- ---------------------------------------------------------------------------

/-- An action that ends well is followed by the next, at the stage it leaves. -/
theorem run_bind_ok {act : Action α} {a : α} (h : act.run.run stage = (.ok a, stage'))
    (next : α → Action β) : (act >>= next).run.run stage = (next a).run.run stage' := by
  rw [ExceptT.run_bind, StateT.run_bind, h]
  rfl

theorem run_bind_error {act : Action α} {failure : Failure}
    (h : act.run.run stage = (.error failure, stage')) (next : α → Action β) :
    (act >>= next).run.run stage = (.error failure, stage') := by
  rw [ExceptT.run_bind, StateT.run_bind, h]
  rfl

theorem run_get (stage : Stage) : (get : Action Stage).run.run stage = (.ok stage, stage) := rfl

theorem run_orFail (result : Except Failure α) (stage : Stage) :
    (orFail result).run.run stage = (result, stage) := by
  cases result <;> rfl

theorem run_print (text : String) (stage : Stage) :
    (print text).run.run stage = (.ok (), { stage with stdout := stage.stdout ++ text }) := rfl

theorem run_printError (text : String) (stage : Stage) :
    (printError text).run.run stage = (.ok (), { stage with stderr := stage.stderr ++ text }) := rfl

-- ---------------------------------------------------------------------------
-- What commands rest on
-- ---------------------------------------------------------------------------

/-- A load gives the records of the configuration and logs their number, with a display or not. -/
theorem run_load (env : Environment) (verbosity : Nat) (silent : Bool) (config : Config)
    (stage : Stage) :
    (load env verbosity silent config).run.run stage =
      match loadRecords stage.tree env.workingDirectory config with
      | .error e => (.error (.ofLoad e), stage)
      | .ok records =>
        (.ok records,
          { stage with stderr := stage.stderr ++ loadLog verbosity config records }) := by
  rw [loadRecords, loadRecordsShowing_fst_congr _ _ _ true silent, load,
    run_bind_ok (run_get stage)]
  cases loadRecordsShowing stage.tree env.workingDirectory config silent with
  | mk result shown => cases result <;> rfl

/-- The text of a query, given or in a file. -/
def readQueryText (env : Environment) (tree : FileTree) : QueryText → Except Failure String
  | .given text => .ok text
  | .file path => (tree.readText env.workingDirectory path).mapError fun fault =>
      ⟨"Failed to read query file " ++ path, some fault.message⟩

/-- The query of a text, given or in a file. -/
def readQuery (env : Environment) (tree : FileTree) (mode : Mode) (text : QueryText) :
    Except Failure Query := do
  (Query.parse mode (← readQueryText env tree text)).mapError .ofQuery

theorem run_queryText (env : Environment) (text : QueryText) (stage : Stage) :
    (queryText env text).run.run stage = (readQueryText env stage.tree text, stage) := by
  cases text with
  | given text => rfl
  | file path => rw [queryText, run_bind_ok (run_get stage), run_orFail, readQueryText]

theorem run_loadSettings (env : Environment) (stage : Stage) :
    (loadSettings env).run.run stage =
      ((Settings.load stage.tree env.workingDirectory env.settingsPath).mapError .ofSettings,
        stage) := by
  rw [loadSettings, run_bind_ok (run_get stage), run_orFail]

-- ---------------------------------------------------------------------------
-- Commands that load records
-- ---------------------------------------------------------------------------

/-- What is printed of records. -/
def shownRecords (color json : Bool) (records : List Record) : String :=
  if json then Report.recordLines records else Report.records color records

/-- What is printed of an outcome. -/
def shownOutcome (color json : Bool) (outcome : Outcome) : String :=
  if json then (Report.outcomeJson outcome).render ++ "\n" else Report.ids color outcome

/-- The warnings that are printed of an outcome; as JSON they are part of the outcome. -/
def shownWarnings (color json : Bool) (outcome : Outcome) : String :=
  if json then "" else Report.warnings color outcome

section Loading

variable (env : Environment) (verbosity : Nat) (color json : Bool) (config : Config) (stage : Stage)

/-- Showing records loads them and then prints one line each. -/
theorem perform_showRecords :
    (showRecords env verbosity color json config).run.run stage =
      match loadRecords stage.tree env.workingDirectory config with
      | .error e => (.error (.ofLoad e), stage)
      | .ok records =>
        (.ok (), { stage with
          stdout := stage.stdout ++ shownRecords color json records
          stderr := stage.stderr ++ loadLog verbosity config records }) := by
  have hLoad := run_load env verbosity json config stage
  rw [showRecords]
  cases hRecords : loadRecords stage.tree env.workingDirectory config with
  | error e =>
    rw [hRecords] at hLoad
    rw [run_bind_error hLoad]
  | ok records =>
    rw [hRecords] at hLoad
    rw [run_bind_ok hLoad, run_print]
    rfl

/-- Validating loads the records and prints how many there are. -/
theorem perform_validate :
    (validate env verbosity config).run.run stage =
      match loadRecords stage.tree env.workingDirectory config with
      | .error e => (.error (.ofLoad e), stage)
      | .ok records =>
        (.ok (), { stage with
          stdout := stage.stdout ++
            (toString records.length ++ " records in " ++ config.directory ++ " are valid\n")
          stderr := stage.stderr ++ loadLog verbosity config records }) := by
  have hLoad := run_load env verbosity false config stage
  rw [validate]
  cases hRecords : loadRecords stage.tree env.workingDirectory config with
  | error e =>
    rw [hRecords] at hLoad
    rw [run_bind_error hLoad]
  | ok records =>
    rw [hRecords] at hLoad
    rw [run_bind_ok hLoad, run_print]

/-- A query is read before records are loaded, so its errors come first. -/
theorem perform_query (text : QueryText) (mode : Mode) :
    (answerQuery env verbosity color json config text mode).run.run stage =
      match readQuery env stage.tree mode text with
      | .error failure => (.error failure, stage)
      | .ok query =>
        match loadRecords stage.tree env.workingDirectory config with
        | .error e => (.error (.ofLoad e), stage)
        | .ok records =>
          (.ok (), { stage with
            stdout := stage.stdout ++ shownOutcome color json (query.collect records)
            stderr := stage.stderr ++ loadLog verbosity config records ++
              queryLog verbosity query records (query.collect records) ++
              shownWarnings color json (query.collect records) }) := by
  have hText := run_queryText env text stage
  rw [answerQuery, readQuery]
  cases hRead : readQueryText env stage.tree text with
  | error failure =>
    rw [hRead] at hText
    rw [run_bind_error hText]
    rfl
  | ok text =>
    rw [hRead] at hText
    rw [run_bind_ok hText, ok_bind]
    -- the query is parsed before anything is loaded
    have hQuery := run_orFail ((Query.parse mode text).mapError Failure.ofQuery) stage
    cases hParse : (Query.parse mode text).mapError Failure.ofQuery with
    | error failure =>
      rw [hParse] at hQuery
      rw [run_bind_error hQuery]
    | ok query =>
      rw [hParse] at hQuery
      rw [run_bind_ok hQuery]
      have hLoad := run_load env verbosity true config stage
      dsimp only
      cases hRecords : loadRecords stage.tree env.workingDirectory config with
      | error e =>
        rw [hRecords] at hLoad
        rw [run_bind_error hLoad]
      | ok records =>
        rw [hRecords] at hLoad
        rw [run_bind_ok hLoad, run_bind_ok (run_printError _ _)]
        cases json with
        | true =>
          rw [if_pos rfl, run_print]
          simp [shownOutcome, shownWarnings]
        | false =>
          rw [if_neg Bool.false_ne_true, run_bind_ok (run_print _ _), run_printError]
          rfl

end Loading

-- ---------------------------------------------------------------------------
-- Saving settings
-- ---------------------------------------------------------------------------

/-- Settings are in their file. Its directory is there, where no file stood on the way to it, and
what does not lie on the way to the file is as it was. -/
structure SettingsSaved (base : List String) (env : Environment) (settings : Settings)
    (tree tree' : FileTree) : Prop where
  content : tree'.at? (base ++ env.settingsPlace) = some (.file settings.render.toUTF8)
  free : ¬ tree.Blocked (base ++ env.settingsDirectoryPlace)
  others : FileTree.SameOffTheWay (base ++ env.settingsPlace) tree tree'

/-- Every directory on the way to saved settings is there. -/
theorem SettingsSaved.exists_directory {base : List String} {settings : Settings}
    {tree tree' : FileTree} {way : List String} (h : SettingsSaved base env settings tree tree')
    (hWay : way <+: base ++ env.settingsDirectoryPlace) :
    ∃ entries, tree'.at? way = some (.directory entries) := by
  obtain ⟨rest, hRest⟩ := hWay
  have hContent := h.content
  rw [Environment.settingsPlace, ← List.append_assoc, ← hRest, List.append_assoc] at hContent
  exact FileTree.exists_directory_of_at?_append (by simp) hContent

/-- The directory of the settings is made as far as it can be, and what is made stays on failure. -/
theorem run_makeSettingsDirectory {tree : FileTree} {fault? : Option FileFault}
    (h : stage.tree.makeDirectories env.workingDirectory env.settingsDirectory = (tree, fault?)) :
    (makeSettingsDirectory env).run.run stage =
      (fault?.elim (.ok ()) fun fault => .error ⟨fault.message, none⟩, { stage with tree }) := by
  rw [makeSettingsDirectory, run_bind_ok (run_get stage), h]
  cases fault? <;> rfl

/-- Why the settings file could not be written. -/
def writeFailure (fault : FileFault) : Failure :=
  ⟨"Failed to write settings file", some fault.message⟩

/-- Why there is no text for the settings file. -/
def notTextFailure : Failure :=
  ⟨"Failed to serialize settings", some "path contains invalid UTF-8 characters"⟩

/-- Once its directory is there, saving is writing the file. -/
theorem run_saveSettings_some {tree : FileTree}
    (h : stage.tree.makeDirectories env.workingDirectory env.settingsDirectory = (tree, none))
    (text : String) :
    (saveSettings env (some text)).run.run stage =
      match tree.overwriteFile env.workingDirectory env.settingsDirectory
        Environment.settingsNames.2 text.toUTF8 with
      | .ok tree => (.ok (), { stage with tree })
      | .error fault => (.error (writeFailure fault), { stage with tree }) := by
  rw [saveSettings.eq_def, run_bind_ok (run_makeSettingsDirectory h)]
  dsimp only
  rw [run_bind_ok (run_get _)]
  dsimp only
  cases tree.overwriteFile env.workingDirectory env.settingsDirectory
    Environment.settingsNames.2 text.toUTF8 <;> rfl

/-- Without its directory, nothing is saved. -/
theorem run_saveSettings_of_fault {tree : FileTree} {fault : FileFault}
    (h : stage.tree.makeDirectories env.workingDirectory env.settingsDirectory =
      (tree, some fault)) (text? : Option String) :
    (saveSettings env text?).run.run stage =
      (.error ⟨fault.message, none⟩, { stage with tree }) := by
  rw [saveSettings.eq_def, run_bind_error (run_makeSettingsDirectory h)]

/-- Settings without a text are not saved, and this is found out in their directory. -/
theorem run_saveSettings_none {tree : FileTree}
    (h : stage.tree.makeDirectories env.workingDirectory env.settingsDirectory = (tree, none)) :
    (saveSettings env none).run.run stage = (.error notTextFailure, { stage with tree }) := by
  rw [saveSettings.eq_def, run_bind_ok (run_makeSettingsDirectory h)]
  rfl

/-- A text is in the settings file, and other than that, there are at most new directories on the
way to it. -/
def TextSaved (env : Environment) (text : String) (tree tree' : FileTree) : Prop :=
  ∃ place, tree'.locate env.workingDirectory env.settingsPath = .ok place ∧
    tree'.at? place = some (.file text.toUTF8) ∧
    FileTree.OnlyChanges (· = place) (env.OnTheWay tree') tree tree'

/-- **Saving**, whatever the environment: the text is in the settings file, or there are at most new
directories on the way to it. -/
theorem saveSettings_cases (env : Environment) (text? : Option String) (stage : Stage) :
    (∃ text tree, text? = some text ∧
      (saveSettings env text?).run.run stage = (.ok (), { stage with tree }) ∧
      TextSaved env text stage.tree tree) ∨
    ∃ failure tree, (saveSettings env text?).run.run stage = (.error failure, { stage with tree }) ∧
      FileTree.OnlyChanges FileTree.Nowhere (env.OnTheWay tree) stage.tree tree := by
  have hMade := FileTree.onlyChanges_makeDirectories stage.tree env.workingDirectory
    env.settingsDirectory
  rcases hMake : stage.tree.makeDirectories env.workingDirectory env.settingsDirectory with
    ⟨tree, fault?⟩
  rw [hMake] at hMade
  cases fault? with
  | some fault => exact .inr ⟨_, tree, run_saveSettings_of_fault hMake text?, hMade⟩
  | none =>
    cases text? with
    | none => exact .inr ⟨_, tree, run_saveSettings_none hMake, hMade⟩
    | some text =>
      rw [run_saveSettings_some hMake]
      cases hWrite : tree.overwriteFile env.workingDirectory env.settingsDirectory
          Environment.settingsNames.2 text.toUTF8 with
      | error fault => exact .inr ⟨_, tree, rfl, hMade⟩
      | ok tree' =>
        obtain ⟨place, hPlace, hFile, -, hWritten⟩ := FileTree.onlyChanges_overwriteFile
          env.settingsDirectory_ne_empty Environment.isName_settingsNames.2 hWrite
        refine .inl ⟨text, tree', rfl, rfl, place, hPlace, hFile, ?_⟩
        -- what was made on the way to the file still stands once the file is written
        have hMade' : FileTree.OnlyChanges (· = place) (env.OnTheWay tree') stage.tree tree :=
          hMade.mono (fun _ hIn => hIn.elim) fun _ hWay => hWay.mono hWritten List.prefix_rfl
        have hWritten' : FileTree.OnlyChanges (· = place) (env.OnTheWay tree') tree tree' :=
          hWritten.mono (fun _ hIn => hIn) fun _ hIn => hIn.elim
        exact hMade'.trans hWritten'

/-- **Settings are saved** in a plain environment, or nothing is changed: a file is in the way of
the directory, or there is none to start from, or a directory is in the place of the file. -/
theorem saveSettings_cases_of_isPlain (hEnv : env.IsPlain) (settings : Settings) (stage : Stage) :
    (∃ tree, (saveSettings env (some settings.render)).run.run stage =
        (.ok (), { stage with tree }) ∧
      SettingsSaved env.settingsOrigin env settings stage.tree tree) ∨
    ∃ failure, (saveSettings env (some settings.render)).run.run stage = (.error failure, stage) ∧
      ('\x00' ∉ env.settingsDirectory.toList →
        stage.tree.Blocked (env.settingsOrigin ++ env.settingsDirectoryPlace) ∨
        stage.tree.at? env.settingsOrigin = none ∨
        ∃ entries, stage.tree.at? (env.settingsOrigin ++ env.settingsPlace) =
          some (.directory entries)) := by
  have hUp := hEnv.noParent_settingsDirectory
  have hShort := hEnv.short_settingsDirectory
  rcases FileTree.makeDirectories_cases stage.tree env.workingDirectory hUp hShort
    hEnv.directoryPath with ⟨tree₁, hMake, hNul, hMade⟩ | ⟨fault, hMake, hWhy⟩
  · have hRefusal := Environment.refusal?_settingsPath hNul hEnv.path
    obtain ⟨entries, hEntries⟩ := hMade.directory
    rw [run_saveSettings_some hMake, FileTree.overwriteFile_eq hEntries hUp hShort hRefusal]
    rw [env.components_settingsDirectory] at hMade hEntries ⊢
    cases hReplace : tree₁.replaceFile
        (FileTree.origin env.workingDirectory env.settingsDirectory ++ env.settingsDirectoryPlace)
        Environment.settingsNames.2 settings.render.toUTF8 with
    | ok tree₂ =>
      obtain ⟨-, -, hContent, hOthers⟩ := FileTree.replaceFile_eq_ok hReplace
      rw [List.append_assoc] at hContent hOthers
      refine .inl ⟨tree₂, rfl, hContent, hMade.free, ?_⟩
      exact (hMade.others.mono ((List.prefix_append_right_inj _).mpr
        (List.prefix_append _ _))).trans hOthers
    | error fault =>
      -- a directory in the place of the file was there before, with all directories on the way
      have hFile : Environment.settingsNames.2.utf8ByteSize ≤ FileTree.nameLimit := by decide
      obtain ⟨-, inner, hInner⟩ := FileTree.replaceFile_eq_error hFile hEntries hReplace
      rw [hMade.others _ (FileTree.not_append_isPrefix (List.cons_ne_nil _ _))] at hInner
      obtain ⟨above, hAbove⟩ :=
        FileTree.exists_directory_of_at?_append (List.cons_ne_nil _ _) hInner
      rw [← env.components_settingsDirectory] at hAbove
      rw [FileTree.makeDirectories_of_directory hAbove hUp hShort hNul hEnv.directoryPath] at hMake
      cases hMake
      rw [List.append_assoc] at hInner
      exact .inr ⟨_, rfl, fun _ => .inr (.inr ⟨inner, hInner⟩)⟩
  · rw [run_saveSettings_of_fault hMake]
    rw [env.components_settingsDirectory] at hWhy
    exact .inr ⟨_, rfl, fun hNul => (hWhy hNul).imp_right .inl⟩

-- ---------------------------------------------------------------------------
-- Commands
-- ---------------------------------------------------------------------------

section Commands

variable {tree : FileTree} {args : List String} {call : Invocation} {settings : Settings}
  {verbosity : Nat} {noColor json : Bool} {source : SourceOptions}

/-- A run does what the command of its arguments does. -/
theorem run_of_parse (tree : FileTree) (hArgs : CommandLine.parse args = .ok call) :
    run env tree args = carryOut env tree call := by
  rw [run, hArgs]

theorem run_loadSettings_ok (tree : FileTree)
    (hSettings : Settings.load tree env.workingDirectory env.settingsPath = .ok settings) :
    (loadSettings env).run.run { tree } = (.ok settings, { tree }) := by
  rw [run_loadSettings, hSettings]
  rfl

/-- Without settings no command is begun. -/
theorem carryOut_of_settings_error {e : Settings.LoadError}
    (hSettings : Settings.load tree env.workingDirectory env.settingsPath = .error e)
    (call : Invocation) : carryOut env tree call = .failed tree (.ofSettings e) := by
  have hLoad : (loadSettings env).run.run { tree } = (.error (.ofSettings e), { tree }) := by
    rw [run_loadSettings, hSettings]
    rfl
  rw [carryOut, perform, run_bind_error hLoad]
  rfl

variable (hSettings : Settings.load tree env.workingDirectory env.settingsPath = .ok settings)
include hSettings

/-- What `show` comes to, by the load of its records. -/
theorem carryOut_showRecords (verbosity : Nat) (noColor : Bool) (source : SourceOptions)
    (json : Bool) :
    carryOut env tree ⟨verbosity, noColor, .showRecords source json⟩ =
      match loadRecords tree env.workingDirectory (settings.apply source.config) with
      | .error e => .failed tree (.ofLoad e)
      | .ok records =>
        .finished tree (shownRecords (settings.color && !noColor) json records)
          (loadLog verbosity (settings.apply source.config) records) := by
  rw [carryOut, perform, run_bind_ok (run_loadSettings_ok tree hSettings)]
  dsimp only
  rw [perform_showRecords]
  cases loadRecords tree env.workingDirectory (settings.apply source.config) with
  | error e => simp [Run.ofOutcome, Run.failed]
  | ok records => simp [Run.ofOutcome, Run.finished]

/-- What `validate` comes to, by the load of its records. -/
theorem carryOut_validate (verbosity : Nat) (noColor : Bool) (source : SourceOptions) :
    carryOut env tree ⟨verbosity, noColor, .validate source⟩ =
      match loadRecords tree env.workingDirectory (settings.apply source.config) with
      | .error e => .failed tree (.ofLoad e)
      | .ok records =>
        .finished tree
          (toString records.length ++ " records in " ++ source.directory ++ " are valid\n")
          (loadLog verbosity (settings.apply source.config) records) := by
  rw [carryOut, perform, run_bind_ok (run_loadSettings_ok tree hSettings)]
  dsimp only
  rw [perform_validate]
  cases loadRecords tree env.workingDirectory (settings.apply source.config) with
  | error e => simp [Run.ofOutcome, Run.failed]
  | ok records => simp [Run.ofOutcome, Run.finished, Settings.apply, SourceOptions.config]

/-- What `query` comes to, by the reading of its query and then the load of its records. -/
theorem carryOut_query (verbosity : Nat) (noColor : Bool) (source : SourceOptions)
    (text : QueryText) (mode : Mode) (json : Bool) :
    carryOut env tree ⟨verbosity, noColor, .query source text mode json⟩ =
      match readQuery env tree mode text with
      | .error failure => .failed tree failure
      | .ok query =>
        match loadRecords tree env.workingDirectory (settings.apply source.config) with
        | .error e => .failed tree (.ofLoad e)
        | .ok records =>
          .finished tree (shownOutcome (settings.color && !noColor) json (query.collect records))
            (loadLog verbosity (settings.apply source.config) records ++
              queryLog verbosity query records (query.collect records) ++
              shownWarnings (settings.color && !noColor) json (query.collect records)) := by
  rw [carryOut, perform, run_bind_ok (run_loadSettings_ok tree hSettings)]
  dsimp only
  rw [perform_query]
  cases readQuery env tree mode text with
  | error failure => simp [Run.ofOutcome, Run.failed]
  | ok query =>
    dsimp only
    cases loadRecords tree env.workingDirectory (settings.apply source.config) with
    | error e => simp [Run.ofOutcome, Run.failed]
    | ok records => simp [Run.ofOutcome, Run.finished]

/-- What is printed of settings. -/
def shownSettings (env : Environment) (settings : Settings) : String :=
  "Settings file: " ++ env.settingsPath ++ "\n" ++ settings.render ++ "\n"

/-- Without a change, settings are printed. -/
theorem carryOut_settings_keep {change : Settings.Change} (hKeep : change.isChange = false)
    (verbosity : Nat) (noColor : Bool) :
    carryOut env tree ⟨verbosity, noColor, .settings change⟩ =
      .finished tree (shownSettings env (settings.changed change)) "" := by
  rw [carryOut, perform, run_bind_ok (run_loadSettings_ok tree hSettings)]
  dsimp only
  rw [changeSettings, hKeep, if_neg Bool.false_ne_true, run_print, Run.ofOutcome]
  dsimp only
  rw [String.empty_append]
  rfl

/-- What a change of settings prints and fails with is decided when they are saved. -/
theorem carryOut_settings_change {change : Settings.Change} (hChange : change.isChange = true)
    (verbosity : Nat) (noColor : Bool) :
    carryOut env tree ⟨verbosity, noColor, .settings change⟩ =
      match (saveSettings env (some (settings.changed change).render)).run.run { tree } with
      | (.ok (), stage) =>
        ⟨0, stage.stdout ++ shownSettings env (settings.changed change), stage.stderr, stage.tree⟩
      | (.error failure, stage) => ⟨1, stage.stdout, stage.stderr ++ failure.text, stage.tree⟩ := by
  rw [carryOut, perform, run_bind_ok (run_loadSettings_ok tree hSettings)]
  dsimp only
  rw [changeSettings, hChange, if_pos rfl]
  rcases hSave : (saveSettings env (some (settings.changed change).render)).run.run { tree } with
    ⟨result, stage⟩
  cases result with
  | error failure => rw [run_bind_error hSave, Run.ofOutcome]
  | ok done => rw [run_bind_ok hSave, run_print, Run.ofOutcome]; rfl

/-- **A change of settings**, whatever the environment: they are saved and then printed, or there
are at most new directories on the way to their file; in a plain environment not even these. -/
theorem carryOut_change {change : Settings.Change} (hChange : change.isChange = true)
    (verbosity : Nat) (noColor : Bool) :
    (∃ tree', carryOut env tree ⟨verbosity, noColor, .settings change⟩ =
        .finished tree' (shownSettings env (settings.changed change)) "" ∧
      TextSaved env (settings.changed change).render tree tree') ∨
    ∃ failure tree', carryOut env tree ⟨verbosity, noColor, .settings change⟩ =
        .failed tree' failure ∧
      FileTree.OnlyChanges FileTree.Nowhere (env.OnTheWay tree') tree tree' ∧
      (env.IsPlain → tree' = tree) := by
  rw [carryOut_settings_change hSettings hChange]
  rcases saveSettings_cases env (some (settings.changed change).render) { tree } with
    ⟨text, tree', hText, hSave, hSaved⟩ | ⟨failure, tree', hSave, hMade⟩
  · cases hText
    rw [hSave]
    refine .inl ⟨tree', ?_, hSaved⟩
    dsimp only
    rw [String.empty_append, Run.finished]
  · rw [hSave]
    refine .inr ⟨failure, tree', ?_, hMade, fun hEnv => ?_⟩
    · dsimp only
      rw [String.empty_append, Run.failed]
    · -- in a plain environment a failure comes before anything is made
      rcases saveSettings_cases_of_isPlain hEnv (settings.changed change) { tree } with
        ⟨saved, hOk, -⟩ | ⟨failure', hError, -⟩
      · rw [hOk] at hSave
        cases hSave
      · rw [hError] at hSave
        cases hSave
        rfl

/-- A schema path that is not text is never saved. The directory was made for nothing, then. -/
theorem carryOut_settingsNotText (verbosity : Nat) (noColor : Bool) :
    ∃ failure tree', carryOut env tree ⟨verbosity, noColor, .settingsNotText⟩ =
        .failed tree' failure ∧
      FileTree.OnlyChanges FileTree.Nowhere (env.OnTheWay tree') tree tree' := by
  rw [carryOut, perform, run_bind_ok (run_loadSettings_ok tree hSettings)]
  dsimp only
  rcases saveSettings_cases env none { tree } with
    ⟨text, tree', hText, -⟩ | ⟨failure, tree', hSave, hMade⟩
  · cases hText
  · rw [hSave, Run.ofOutcome]
    refine ⟨failure, tree', ?_, hMade⟩
    dsimp only
    rw [String.empty_append, Run.failed]

end Commands

-- ---------------------------------------------------------------------------
-- Runs
-- ---------------------------------------------------------------------------

section Runs

variable {tree : FileTree} {args : List String} {call : Invocation} {settings : Settings}
  {verbosity : Nat} {noColor json : Bool} {source : SourceOptions}

/-- Without settings no command is begun. -/
theorem run_of_settings_error {e : Settings.LoadError} (hArgs : CommandLine.parse args = .ok call)
    (hSettings : Settings.load tree env.workingDirectory env.settingsPath = .error e) :
    run env tree args = .failed tree (.ofSettings e) :=
  (run_of_parse tree hArgs).trans (carryOut_of_settings_error hSettings call)

variable (hSettings : Settings.load tree env.workingDirectory env.settingsPath = .ok settings)
include hSettings

theorem run_showRecords
    (hArgs : CommandLine.parse args = .ok ⟨verbosity, noColor, .showRecords source json⟩) :
    run env tree args =
      match loadRecords tree env.workingDirectory (settings.apply source.config) with
      | .error e => .failed tree (.ofLoad e)
      | .ok records =>
        .finished tree (shownRecords (settings.color && !noColor) json records)
          (loadLog verbosity (settings.apply source.config) records) :=
  (run_of_parse tree hArgs).trans (carryOut_showRecords hSettings verbosity noColor source json)

theorem run_validate
    (hArgs : CommandLine.parse args = .ok ⟨verbosity, noColor, .validate source⟩) :
    run env tree args =
      match loadRecords tree env.workingDirectory (settings.apply source.config) with
      | .error e => .failed tree (.ofLoad e)
      | .ok records =>
        .finished tree
          (toString records.length ++ " records in " ++ source.directory ++ " are valid\n")
          (loadLog verbosity (settings.apply source.config) records) :=
  (run_of_parse tree hArgs).trans (carryOut_validate hSettings verbosity noColor source)

theorem run_query {text : QueryText} {mode : Mode}
    (hArgs : CommandLine.parse args = .ok ⟨verbosity, noColor, .query source text mode json⟩) :
    run env tree args =
      match readQuery env tree mode text with
      | .error failure => .failed tree failure
      | .ok query =>
        match loadRecords tree env.workingDirectory (settings.apply source.config) with
        | .error e => .failed tree (.ofLoad e)
        | .ok records =>
          .finished tree (shownOutcome (settings.color && !noColor) json (query.collect records))
            (loadLog verbosity (settings.apply source.config) records ++
              queryLog verbosity query records (query.collect records) ++
              shownWarnings (settings.color && !noColor) json (query.collect records)) :=
  (run_of_parse tree hArgs).trans (carryOut_query hSettings verbosity noColor source text mode json)

/-- Without a change, settings are printed. -/
theorem run_settings_keep {change : Settings.Change} (hKeep : change.isChange = false)
    (hArgs : CommandLine.parse args = .ok ⟨verbosity, noColor, .settings change⟩) :
    run env tree args = .finished tree (shownSettings env (settings.changed change)) "" :=
  (run_of_parse tree hArgs).trans (carryOut_settings_keep hSettings hKeep verbosity noColor)

/-- With a change, settings are saved and then printed; or a file is in the way, and nothing is
done. -/
theorem run_settings_change (hEnv : env.IsOrdinary) {change : Settings.Change}
    (hChange : change.isChange = true)
    (hArgs : CommandLine.parse args = .ok ⟨verbosity, noColor, .settings change⟩) :
    (∃ tree', run env tree args =
        .finished tree' (shownSettings env (settings.changed change)) "" ∧
      SettingsSaved [] env (settings.changed change) tree tree') ∨
    ∃ failure, run env tree args = .failed tree failure ∧
      tree.Blocked env.settingsDirectoryPlace := by
  have hOrigin : env.settingsOrigin = [] := hEnv.origin_settingsDirectory env.workingDirectory
  have hNul := hEnv.noNul_settingsDirectory
  rw [run_of_parse tree hArgs, carryOut_settings_change hSettings hChange]
  rcases saveSettings_cases_of_isPlain hEnv.isPlain (settings.changed change) { tree } with
    ⟨tree', hSave, hSaved⟩ | ⟨failure, hSave, hWhy⟩
  · rw [hOrigin] at hSaved
    rw [hSave]
    refine .inl ⟨tree', ?_, hSaved⟩
    dsimp only
    rw [String.empty_append, Run.finished]
  · rw [hSave]
    refine .inr ⟨failure, ?_, ?_⟩
    · dsimp only
      rw [String.empty_append, Run.failed]
    · -- settings were loaded, so there is no directory in the place of their file
      have hPlace := hEnv.isPlain.not_directory_of_load hNul hSettings
      rw [hOrigin, List.nil_append] at hPlace
      rw [hOrigin, List.nil_append, List.nil_append] at hWhy
      rcases hWhy hNul with hBlocked | hNone | ⟨entries, hDirectory⟩
      · exact hBlocked
      · rw [FileTree.at?_nil] at hNone
        cases hNone
      · exact absurd hDirectory (hPlace entries)

end Runs

end Session

end FoodScan
