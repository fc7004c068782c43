import FoodScan.CommandLine
import FoodScan.Proofs.Traversal

/-!
# Arguments for every change

Every change of settings can be asked for: each setting has an option of its own, any of them can be
left out, and a schema path may have whatever characters, as long as it has any. Main result:
`parse_arguments`.
-/

namespace FoodScan

namespace CommandLine

variable {specs : List OptionSpec} {spec : OptionSpec} {name value : String} {rest : List String}

/-- A long option is split from its value at the first equals sign. -/
theorem splitLong_attached (hName : '=' ∉ name.toList) (value : List Char) :
    splitLong (name.toList ++ '=' :: value) = (name, some (String.ofList value)) := by
  have hTake : (name.toList ++ '=' :: value).takeWhile (· != '=') = name.toList := by
    rw [List.takeWhile_append_of_pos]
    · simp
    · intro c hc
      simpa using ne_of_mem_of_not_mem hc hName
  rw [splitLong, hTake, List.drop_left, String.ofList_toList]

/-- An option may have its value attached, whatever the value. -/
theorem option?_attached (hName : '=' ∉ name.toList)
    (hSpec : specs.find? (fun s => s.name == name) = some spec) (hArity : spec.arity = .valued) :
    option? specs ("--" ++ name ++ "=" ++ value) rest =
      some (.ok ([⟨name, some value⟩], rest)) := by
  have hSame : spec.name = name := by simpa using List.find?_some hSpec
  have hChars : ("--" ++ name ++ "=" ++ value).toList =
      '-' :: '-' :: (name.toList ++ '=' :: value.toList) := by
    simp
  have hSplit := splitLong_attached hName value.toList
  rw [String.ofList_toList] at hSplit
  rw [option?, hChars]
  show some ((longOption specs (splitLong _).1 (splitLong _).2 rest).map _) = _
  rw [hSplit, longOption, hSpec]
  dsimp only
  rw [hArity, hSame]
  rfl

/-- One option is read, and then the rest. -/
theorem optionsUpTo_cons {arg : String} {given more : List Occurrence} {bound : Nat}
    (hArg : arg ≠ "--") (hOption : option? specs arg rest = some (.ok (given, rest)))
    (hRest : optionsUpTo specs bound rest = .ok more) :
    optionsUpTo specs (bound + 1) (arg :: rest) = .ok (given ++ more) := by
  rw [optionsUpTo, if_neg hArg, hOption]
  show (optionsUpTo specs bound rest >>= _) = _
  rw [hRest]
  rfl

/-- The options that may stand after the name of the command. -/
def settingsOptions : List OptionSpec :=
  programOptions ++ (commandOptions "settings").getD []

/-- Arguments after `settings` are parsed as its options. -/
theorem parse_settings {args : List String} {given : List Occurrence} {asked : Command}
    (hGiven : optionsUpTo settingsOptions (args.length + 1) args = .ok given)
    (hOnce : noneTwice settingsOptions given = true) (hQuiet : isGiven given "verbose" = false)
    (hColor : isGiven given "no-color" = false) (hCommand : command "settings" given = .ok asked) :
    parse ("settings" :: args) = .ok ⟨0, false, asked⟩ := by
  have hBefore : beforeCommand (("settings" :: args).length + 1) ("settings" :: args) =
      .ok ([], "settings", args) := rfl
  rw [parse, hBefore, ok_bind]
  show (optionsUpTo settingsOptions (args.length + 1) args >>= _) = _
  rw [hGiven, ok_bind]
  show (require (true && noneTwice settingsOptions given) >>= _) = _
  rw [hOnce]
  show (command "settings" given >>= _) = _
  rw [hCommand, ok_bind, hQuiet, hColor]
  rfl

end CommandLine

namespace Settings

open CommandLine

/-- The arguments that ask for a change of the schema path. -/
def SchemaChange.arguments : SchemaChange → List String
  | .keep => []
  | .set path => ["--" ++ "schema" ++ "=" ++ path]
  | .clear => ["--clear-schema"]

/-- The options that ask for a change of the schema path. -/
def SchemaChange.occurrences : SchemaChange → List Occurrence
  | .keep => []
  | .set path => [⟨"schema", some path⟩]
  | .clear => [⟨"clear-schema", none⟩]

/-- The arguments that ask for a change. -/
def Change.arguments (change : Change) : List String :=
  change.schema.arguments ++
    ((change.recursive.toList.map fun b => "--recursive=" ++ toString b) ++
      change.color.toList.map fun b => "--color=" ++ toString b)

/-- The options that ask for a change. -/
def Change.occurrences (change : Change) : List Occurrence :=
  change.schema.occurrences ++
    ((change.recursive.toList.map fun b => ⟨"recursive", some (toString b)⟩) ++
      change.color.toList.map fun b => ⟨"color", some (toString b)⟩)

/-- The arguments of a change are read as the options it gives. -/
theorem optionsUpTo_arguments (change : Change) :
    optionsUpTo settingsOptions (change.arguments.length + 1) change.arguments =
      .ok change.occurrences := by
  obtain ⟨schema, recursive, color⟩ := change
  -- the two flags have few values, so what they add is evaluated; the path of the schema can be any
  -- text
  have hKeep : optionsUpTo settingsOptions ((Change.arguments ⟨.keep, recursive, color⟩).length + 1)
      (Change.arguments ⟨.keep, recursive, color⟩) =
        .ok (Change.occurrences ⟨.keep, recursive, color⟩) := by
    rcases recursive with _ | _ | _ <;> rcases color with _ | _ | _ <;> decide +kernel
  cases schema with
  | keep => exact hKeep
  | clear => exact optionsUpTo_cons (by decide) rfl hKeep
  | set path =>
    have hDashes : "--" ++ "schema" ++ "=" ++ path ≠ "--" := by
      intro h
      have hChars := congrArg String.toList h
      simp at hChars
    have hName : '=' ∉ "schema".toList := by decide
    have hOption : option? settingsOptions ("--" ++ "schema" ++ "=" ++ path)
        (Change.arguments ⟨.keep, recursive, color⟩) =
          some (.ok ([⟨"schema", some path⟩], Change.arguments ⟨.keep, recursive, color⟩)) :=
      option?_attached hName rfl rfl
    exact optionsUpTo_cons hDashes hOption hKeep

theorem schemaChange_occurrences {change : Change} (h : change.schema ≠ .set "") :
    schemaChange change.occurrences = .ok change.schema := by
  obtain ⟨schema, recursive, color⟩ := change
  have hPath : ∀ path, schema = .set path →
      path? (Change.occurrences ⟨schema, recursive, color⟩) "schema" = .ok (some path) := by
    rintro path rfl
    have hValue : value? (Change.occurrences ⟨.set path, recursive, color⟩) "schema" = some path :=
      rfl
    rw [path?, hValue]
    split <;> simp_all
  cases schema with
  | keep => rcases recursive with _ | _ <;> rcases color with _ | _ <;> rfl
  | clear => rcases recursive with _ | _ <;> rcases color with _ | _ <;> rfl
  | set path =>
    rw [schemaChange, hPath path rfl]
    rcases recursive with _ | _ <;> rcases color with _ | _ <;> rfl

/-- These options ask for just that change. -/
theorem command_occurrences {change : Change} (h : change.schema ≠ .set "") :
    command "settings" change.occurrences = .ok (.settings change) := by
  have hSchema := schemaChange_occurrences h
  have hTruth : truth? change.occurrences "recursive" = .ok change.recursive ∧
      truth? change.occurrences "color" = .ok change.color := by
    obtain ⟨schema, recursive, color⟩ := change
    cases schema <;> rcases recursive with _ | _ | _ <;> rcases color with _ | _ | _ <;>
      exact ⟨rfl, rfl⟩
  rw [command, hSchema, hTruth.1, hTruth.2]
  rfl

/-- **Every change** can be asked for, but for one to an empty path. -/
theorem parse_arguments {change : Change} (h : change.schema ≠ .set "") :
    CommandLine.parse ("settings" :: change.arguments) = .ok ⟨0, false, .settings change⟩ := by
  have hNames : noneTwice settingsOptions change.occurrences = true ∧
      isGiven change.occurrences "verbose" = false ∧
      isGiven change.occurrences "no-color" = false := by
    obtain ⟨schema, recursive, color⟩ := change
    cases schema <;> rcases recursive with _ | _ <;> rcases color with _ | _ <;>
      exact ⟨rfl, rfl, rfl⟩
  exact parse_settings (optionsUpTo_arguments change) hNames.1 hNames.2.1 hNames.2.2
    (command_occurrences h)

end Settings

end FoodScan
