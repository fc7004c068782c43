import FoodScan.Proofs.Json.OneLine
import FoodScan.Proofs.Loading.Selection
import FoodScan.Proofs.Query.Evaluation
import FoodScan.Proofs.Session.Runs

/-!
# The commands agree about what loads

All commands that load records load the same ones: those of the configuration that the settings make
of the source options. So they fail together, and when they do not, what they print is about the
same records. Main result: `commands_agree`.
-/

namespace FoodScan.Session

variable {env : Environment} {tree : FileTree} {settings : Settings} {source : SourceOptions}
  {records : List Record}

-- ---------------------------------------------------------------------------
-- One way to load
-- ---------------------------------------------------------------------------

/-- The arguments ask for records of a source: for their number, for themselves, or for those that
match a query that can be read. -/
inductive AsksForRecords (env : Environment) (tree : FileTree) (source : SourceOptions)
    (args : List String) : Prop
  | validate {verbosity : Nat} {noColor : Bool}
    (h : CommandLine.parse args = .ok ⟨verbosity, noColor, .validate source⟩)
  | showRecords {verbosity : Nat} {noColor json : Bool}
    (h : CommandLine.parse args = .ok ⟨verbosity, noColor, .showRecords source json⟩)
  | query {verbosity : Nat} {noColor json : Bool} {text : QueryText} {mode : Mode} {query : Query}
    (h : CommandLine.parse args = .ok ⟨verbosity, noColor, .query source text mode json⟩)
    (hQuery : readQuery env tree mode text = .ok query)

/-- Runs that ask for records fail together, for the same reason. -/
theorem run_of_load_error {args : List String} {e : LoadError}
    (hSettings : Settings.load tree env.workingDirectory env.settingsPath = .ok settings)
    (hLoad : loadRecords tree env.workingDirectory (settings.apply source.config) = .error e)
    (hArgs : AsksForRecords env tree source args) :
    run env tree args = .failed tree (.ofLoad e) := by
  cases hArgs with
  | validate h => rw [run_validate hSettings h, hLoad]
  | showRecords h => rw [run_showRecords hSettings h, hLoad]
  | query h hQuery => rw [run_query hSettings h, hQuery, hLoad]

/-- They come to their end together. -/
theorem code_of_load_ok {args : List String}
    (hSettings : Settings.load tree env.workingDirectory env.settingsPath = .ok settings)
    (hLoad : loadRecords tree env.workingDirectory (settings.apply source.config) = .ok records)
    (hArgs : AsksForRecords env tree source args) : (run env tree args).code = 0 := by
  cases hArgs with
  | validate h => rw [run_validate hSettings h, hLoad]; rfl
  | showRecords h => rw [run_showRecords hSettings h, hLoad]; rfl
  | query h hQuery => rw [run_query hSettings h, hQuery, hLoad]; rfl

/-- A load comes to the same in whatever order the files are finished, unless two of them fail. -/
theorem eq_loadRecords_of_mayEndIn {schema : Schema} {config : Config}
    {workingDirectory paths : List String} {outcome : Except LoadError (List Record)}
    (hSchema : loadSchema tree workingDirectory config.schema = .ok schema)
    (hPaths : discover tree workingDirectory config = .ok paths)
    (hOne : ∀ path ∈ paths, ∀ other ∈ paths,
      (∃ e, loadFile tree workingDirectory schema config.format path = .error e) →
      (∃ e, loadFile tree workingDirectory schema config.format other = .error e) → other = path)
    (h : Gathering.MayEndIn (loadFile tree workingDirectory schema config.format) paths outcome) :
    outcome = loadRecords tree workingDirectory config := by
  rw [loadRecords, loadRecordsShowing_fst hSchema hPaths]
  exact Gathering.eq_of_mayEndIn h (Gathering.mayEndIn_mapM _ paths) hOne

-- ---------------------------------------------------------------------------
-- Lines
-- ---------------------------------------------------------------------------

/-- Records as JSON are one line each. -/
theorem count_newline_recordLines (records : List Record) :
    (Report.recordLines records).toList.count '\n' = records.length := by
  induction records with
  | nil => rfl
  | cons r rest ih =>
    have hLine : (r.toJson.render).toList.count '\n' = 0 :=
      List.count_eq_zero.mpr (Json.newline_not_mem_render _)
    have hRest : Report.recordLines (r :: rest) =
        r.toJson.render ++ "\n" ++ Report.recordLines rest := by
      simp [Report.recordLines, String.join_cons]
    have hEnd : "\n".toList.count '\n' = 1 := by decide
    rw [hRest, String.toList_append, String.toList_append, List.count_append, List.count_append,
      hLine, hEnd, ih, List.length_cons]
    omega

-- ---------------------------------------------------------------------------
-- Empty queries
-- ---------------------------------------------------------------------------

theorem readQuery_empty (env : Environment) (tree : FileTree) (mode : Mode) :
    readQuery env tree mode (.given "\x7b\x7d") = .ok ⟨mode, []⟩ := rfl

/-- Without terms, every record matches or none does. -/
theorem mem_collect_ids_empty_and {i : Int64} :
    i ∈ ((⟨.and, []⟩ : Query).collect records).ids ↔ ∃ r ∈ records, r.identifier = i := by
  rw [Query.mem_collect_ids]
  simp [Query.verdict]

theorem collect_ids_empty_or (records : List Record) :
    ((⟨.or, []⟩ : Query).collect records).ids = [] := by
  rw [List.eq_nil_iff_forall_not_mem]
  intro i hi
  obtain ⟨r, -, -, hMatch⟩ := Query.mem_collect_ids.mp hi
  cases hMatch

-- ---------------------------------------------------------------------------
-- What is printed
-- ---------------------------------------------------------------------------

/-- What runs print of the records of a source, whatever else their arguments say. -/
structure Printed (env : Environment) (tree : FileTree) (settings : Settings)
    (source : SourceOptions) (records : List Record) : Prop where
  validate : ∀ args verbosity noColor,
    CommandLine.parse args = .ok ⟨verbosity, noColor, .validate source⟩ →
    (run env tree args).stdout =
      toString records.length ++ " records in " ++ source.directory ++ " are valid\n"
  lines : ∀ args verbosity noColor,
    CommandLine.parse args = .ok ⟨verbosity, noColor, .showRecords source true⟩ →
    (run env tree args).stdout = Report.recordLines records ∧
      (run env tree args).stdout.toList.count '\n' = records.length
  shown : ∀ args verbosity noColor,
    CommandLine.parse args = .ok ⟨verbosity, noColor, .showRecords source false⟩ →
    (run env tree args).stdout = Report.records (settings.color && !noColor) records
  /-- Every query that can be read prints what the library's own function answers. -/
  query : ∀ args verbosity noColor text mode json query,
    CommandLine.parse args = .ok ⟨verbosity, noColor, .query source text mode json⟩ →
    readQuery env tree mode text = .ok query →
    filterRecords tree env.workingDirectory (settings.apply source.config) query =
        .ok (query.collect records) ∧
      (run env tree args).stdout =
        if json then (Report.outcomeJson (query.collect records)).render ++ "\n"
        else String.join
          ((query.collect records).ids.map (Report.idLine (settings.color && !noColor)))
  everything : ∀ args verbosity noColor,
    CommandLine.parse args =
      .ok ⟨verbosity, noColor, .query source (.given "\x7b\x7d") .and false⟩ →
    ∃ ids : List Int64, ids.Pairwise (· < ·) ∧ (∀ i, i ∈ ids ↔ ∃ r ∈ records, r.identifier = i) ∧
      (run env tree args).stdout =
        String.join (ids.map (Report.idLine (settings.color && !noColor)))
  nothing : ∀ args verbosity noColor,
    CommandLine.parse args =
      .ok ⟨verbosity, noColor, .query source (.given "\x7b\x7d") .or false⟩ →
    (run env tree args).stdout = ""

/-- A query that ends well prints its result, as JSON or one line for each identifier. -/
theorem stdout_query {args : List String} {verbosity : Nat} {noColor json : Bool}
    {text : QueryText} {mode : Mode} {query : Query}
    (hSettings : Settings.load tree env.workingDirectory env.settingsPath = .ok settings)
    (hLoad : loadRecords tree env.workingDirectory (settings.apply source.config) = .ok records)
    (hArgs : CommandLine.parse args = .ok ⟨verbosity, noColor, .query source text mode json⟩)
    (hQuery : readQuery env tree mode text = .ok query) :
    (run env tree args).stdout =
      shownOutcome (settings.color && !noColor) json (query.collect records) := by
  rw [run_query hSettings hArgs, hQuery, hLoad]
  rfl

/-- Once the records are loaded, each command prints what they say. -/
theorem printed_of_load_ok
    (hSettings : Settings.load tree env.workingDirectory env.settingsPath = .ok settings)
    (hLoad : loadRecords tree env.workingDirectory (settings.apply source.config) = .ok records) :
    Printed env tree settings source records where
  validate args verbosity noColor hArgs := by
    rw [run_validate hSettings hArgs, hLoad]
    rfl
  lines args verbosity noColor hArgs := by
    -- the lines are those of the report, so their number is its number of line feeds
    have hOut : (run env tree args).stdout = Report.recordLines records := by
      rw [run_showRecords hSettings hArgs, hLoad]
      rfl
    exact ⟨hOut, by rw [hOut, count_newline_recordLines]⟩
  shown args verbosity noColor hArgs := by
    rw [run_showRecords hSettings hArgs, hLoad]
    rfl
  query args verbosity noColor text mode json query hArgs hQuery :=
    ⟨filterRecords_eq_ok_iff.mpr ⟨records, hLoad, rfl⟩,
      stdout_query hSettings hLoad hArgs hQuery⟩
  everything args verbosity noColor hArgs :=
    ⟨_, Query.collect_ids_ascending records ⟨.and, []⟩, fun _ => mem_collect_ids_empty_and,
      stdout_query hSettings hLoad hArgs (readQuery_empty env tree .and)⟩
  nothing args verbosity noColor hArgs := by
    rw [stdout_query hSettings hLoad hArgs (readQuery_empty env tree .or), shownOutcome, Report.ids,
      collect_ids_empty_or]
    rfl

/-- A query that cannot be parsed fails before any record is loaded. -/
theorem run_of_query_error {args : List String} {verbosity : Nat} {noColor json : Bool}
    {text : QueryText} {mode : Mode} {content : String} {e : QueryError}
    (hSettings : Settings.load tree env.workingDirectory env.settingsPath = .ok settings)
    (hArgs : CommandLine.parse args = .ok ⟨verbosity, noColor, .query source text mode json⟩)
    (hText : readQueryText env tree text = .ok content)
    (hQuery : Query.parse mode content = .error e) :
    run env tree args = .failed tree (.ofQuery e) := by
  have hRead : readQuery env tree mode text = .error (.ofQuery e) := by
    rw [readQuery, hText, ok_bind, hQuery]
    rfl
  rw [run_query hSettings hArgs, hRead]

/-- **The commands agree about what loads.** With settings that load, whatever the source options:

1. all runs that ask for the records fail, with exit code 1 and the same text, or none does;
2. then there are as many records as files discovered, and this is the number that is validated
   and the number of lines of JSON; what queries print are identifiers of these records, in
   ascending order: of all of them, of none, or of those that the library finds (`Printed`);
3. the order in which files are finished changes nothing, unless two of them fail;
4. a query that cannot be read fails with its own error, whatever the files are. -/
theorem commands_agree
    (hSettings : Settings.load tree env.workingDirectory env.settingsPath = .ok settings)
    (source : SourceOptions) :
    ((∃ e, loadRecords tree env.workingDirectory (settings.apply source.config) = .error e ∧
        ∀ args, AsksForRecords env tree source args →
          run env tree args = ⟨1, "", (Failure.ofLoad e).text, tree⟩) ∨
      ∃ paths records,
        discover tree env.workingDirectory (settings.apply source.config) = .ok paths ∧
        loadRecords tree env.workingDirectory (settings.apply source.config) = .ok records ∧
        records.length = paths.length ∧
        (∀ args, AsksForRecords env tree source args → (run env tree args).code = 0) ∧
        Printed env tree settings source records) ∧
    (∀ schema paths outcome,
      loadSchema tree env.workingDirectory (settings.apply source.config).schema = .ok schema →
      discover tree env.workingDirectory (settings.apply source.config) = .ok paths →
      (∀ path ∈ paths, ∀ other ∈ paths,
        (∃ e, loadFile tree env.workingDirectory schema source.format path = .error e) →
        (∃ e, loadFile tree env.workingDirectory schema source.format other = .error e) →
        other = path) →
      Gathering.MayEndIn (loadFile tree env.workingDirectory schema source.format) paths outcome →
      outcome = loadRecords tree env.workingDirectory (settings.apply source.config)) ∧
    ∀ tree' settings' args verbosity noColor text mode json content e,
      Settings.load tree' env.workingDirectory env.settingsPath = .ok settings' →
      CommandLine.parse args = .ok ⟨verbosity, noColor, .query source text mode json⟩ →
      readQueryText env tree' text = .ok content → Query.parse mode content = .error e →
      run env tree' args = ⟨1, "", "Error: " ++ e.message ++ "\n", tree'⟩ := by
  refine ⟨?_, fun schema paths outcome hSchema hPaths hOne hEnd =>
      eq_loadRecords_of_mayEndIn hSchema hPaths hOne hEnd,
    fun tree' settings' args verbosity noColor text mode json content e hSettings' hArgs hText
        hQuery => run_of_query_error hSettings' hArgs hText hQuery⟩
  -- all commands load with the same configuration, so they fail together or not at all
  cases hLoad : loadRecords tree env.workingDirectory (settings.apply source.config) with
  | error e => exact .inl ⟨e, rfl, fun args => run_of_load_error hSettings hLoad⟩
  | ok records =>
    obtain ⟨schema, paths, -, hPaths, hLoads⟩ := loadRecords_eq_ok_iff.mp hLoad
    exact .inr ⟨paths, records, hPaths, rfl, hLoads.length_eq.symm,
      fun args => code_of_load_ok hSettings hLoad, printed_of_load_ok hSettings hLoad⟩

/-- Two files with one identifier. -/
theorem commands_agree_of_shared_identifier :
    let env : Environment := ⟨[], "/config"⟩
    let file : FileTree := .file "gid = 7".toUTF8
    let tree : FileTree := .directory
      [("s.json", .file "\x7b\x7d".toUTF8),
        ("fine", .directory [("a.toml", file), ("b.toml", file)])]
    let outcome (command : String) (options : List String) : Run :=
      run env tree ([command, "-d", "fine", "-s", "s.json"] ++ options)
    (outcome "validate" []).stdout = "2 records in fine are valid\n" ∧
      (outcome "show" ["--json"]).stdout.toList.count '\n' = 2 ∧
      (outcome "query" ["--or", "-q", "\x7b\x7d"]).stdout = "" ∧
      outcome "query" ["-q", "1"] =
        ⟨1, "", "Error: Query must be a JSON object mapping field names to values, got a number\n",
          tree⟩ := by
  intro env file tree outcome
  let source : SourceOptions := ⟨"fine", some "s.json", false, .toml⟩
  let config := ({} : Settings).apply source.config
  have hSettings : Settings.load tree env.workingDirectory env.settingsPath = .ok {} := by
    decide +kernel
  have hSchema : loadSchema tree [] config.schema = .ok (.keywords []) := rfl
  have hPaths : discover tree [] config = .ok ["fine/a.toml", "fine/b.toml"] := by
    have hEntries : tree.entriesAt? [] "fine" = some [("a.toml", file), ("b.toml", file)] := rfl
    have hInput : isStandardInput config.directory = false := by decide
    have hWalk : filesAmong config.format config.recursive [("a.toml", file), ("b.toml", file)] =
        [["a.toml"], ["b.toml"]] := by decide +kernel
    have hSorted : [["a.toml"], ["b.toml"]].mergeSort comesFirst = [["a.toml"], ["b.toml"]] :=
      List.mergeSort_of_pairwise (by decide +kernel)
    rw [discover_eq_ok config hEntries rfl, hInput, hWalk, hSorted]
    decide +kernel
  -- both files give identifier 7, which a query prints once and `show` twice
  have hFiles : ∀ path ∈ ["fine/a.toml", "fine/b.toml"],
      loadFile tree [] (.keywords []) .toml path =
        .ok ⟨7, ⟨[("gid", [.scalar (.int 7)])], by decide +kernel⟩, some path⟩ := by
    decide +kernel
  have hLoad := loadRecords_eq_ok_iff.mpr ⟨_, _, hSchema, hPaths,
    .cons (hFiles "fine/a.toml" (by decide)) (.cons (hFiles "fine/b.toml" (by decide)) .nil)⟩
  obtain ⟨⟨e, hError, -⟩ | ⟨paths, records, hPaths', -, hLength, -, hPrinted⟩, -, hQuery⟩ :=
    commands_agree hSettings source
  · cases hError.symm.trans hLoad
  · cases hPaths.symm.trans hPaths'
    refine ⟨?_, ?_, ?_, ?_⟩
    · rw [hPrinted.validate _ 0 false (by decide +kernel), hLength]
      decide
    · rw [(hPrinted.lines _ 0 false (by decide +kernel)).2, hLength]
      rfl
    · exact hPrinted.nothing _ 0 false (by decide +kernel)
    · exact hQuery tree {} _ 0 false (.given "1") .and false "1" (.notAnObject "a number") hSettings
        (by decide +kernel) rfl (by decide +kernel)

end FoodScan.Session
