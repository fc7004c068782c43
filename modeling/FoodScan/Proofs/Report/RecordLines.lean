import FoodScan.Proofs.Json.OneLine
import FoodScan.Proofs.Json.Rereading
import FoodScan.Proofs.Record.Flattening
import FoodScan.Proofs.Record.Rendering
import FoodScan.Proofs.Session.Runs
import FoodScan.Proofs.Text.ByteOrder

/-!
# Records as lines of JSON

Each record takes one line. Its text has no line end of its own, whatever its names and texts hold,
so the lines can be told apart again; and without floats each line is read as the JSON value of its
record.

* `splitOn_flatMap_line` — lines are found again where they end.
* `Record.canonical_toJson` — the JSON value of a record is canonical.
* `Record.read_render_toJson` — without floats its text is read as this value.

Main result: `record_lines_read_back`.
-/

namespace FoodScan

-- ---------------------------------------------------------------------------
-- Lines
-- ---------------------------------------------------------------------------

/-- Lines without line ends in them are found again; after the last one there is nothing. -/
theorem splitOn_flatMap_line {lines : List (List Char)} (h : ∀ line ∈ lines, '\n' ∉ line) :
    (lines.flatMap (· ++ ['\n'])).splitOn '\n' = lines ++ [[]] := by
  induction lines with
  | nil => rfl
  | cons line rest ih =>
    obtain ⟨hLine, hRest⟩ := List.forall_mem_cons.mp h
    -- the first line end of the text is the one that was put behind this line
    have hFree : ∀ c ∈ line, (c == '\n') = false := by
      intro c hc
      refine beq_false_of_ne ?_
      rintro rfl
      exact hLine hc
    rw [List.flatMap_cons, List.append_assoc, List.singleton_append, List.splitOn,
      List.splitOnP_append_cons_of_forall_mem hFree _ rfl, ← List.splitOn, ih hRest,
      List.cons_append]

/-- Split at its line feeds, the output is one text for each record and an empty one at the end. -/
theorem Report.splitOn_recordLines (records : List Record) :
    ((recordLines records).toList.splitOn '\n').map String.ofList =
      records.map (fun r => r.toJson.render) ++ [""] := by
  have hLines : (recordLines records).toList =
      (records.map fun r => r.toJson.render.toList).flatMap (· ++ ['\n']) := by
    rw [recordLines, String.toList_join, List.flatMap_map, List.flatMap_map]
    exact congrArg (List.flatMap · records) (funext fun r => String.toList_append)
  have hFree : ∀ line ∈ records.map fun r => r.toJson.render.toList, '\n' ∉ line :=
    List.forall_mem_map.mpr fun r _ => Json.newline_not_mem_render r.toJson
  rw [hLines, splitOn_flatMap_line hFree, List.map_append, List.map_map]
  simp

-- ---------------------------------------------------------------------------
-- The JSON value of a record
-- ---------------------------------------------------------------------------

/-- A row is shown as its only element or as the list of its elements. -/
theorem Row.toJson_eq (row : Row) :
    (∃ element, row = [element] ∧ Row.toJson row = element.toJson) ∨
      Row.toJson row = Row.listJson row := by
  rcases row with _ | ⟨element, _ | ⟨second, rest⟩⟩
  · exact .inr rfl
  · exact .inl ⟨element, rfl, rfl⟩
  · exact .inr rfl

/-- Scalars are shown as canonical values. -/
theorem Scalar.canonical_toJson (s : Scalar) : s.toJson.Canonical := by
  cases s with
  | bool b => exact .bool b
  | int n =>
    have hLow := n.le_toInt
    have hHigh := n.toInt_lt
    exact .number ⟨by omega, by omega⟩
  | float x =>
    rw [toJson]
    split
    · rename_i hFinite
      exact .number hFinite
    · exact .null
  | text s => exact .string s

theorem RowElement.canonical_toJson (element : RowElement) : element.toJson.Canonical := by
  cases element with
  | scalar s => exact s.canonical_toJson
  | nested items => exact .array (List.forall_mem_map.mpr fun s _ => s.canonical_toJson)

theorem Row.canonical_toJson (row : Row) : (Row.toJson row).Canonical := by
  rcases Row.toJson_eq row with ⟨element, -, hShown⟩ | hShown
  · rw [hShown]
    exact element.canonical_toJson
  · rw [hShown]
    exact .array (List.forall_mem_map.mpr fun element _ => element.canonical_toJson)

/-- The JSON value of a record is canonical: its members stand in the order of the names. -/
theorem Record.canonical_toJson (r : Record) : r.toJson.Canonical :=
  .object (r.fields.ascending.map fun _ row => Row.toJson row)
    (List.forall_mem_map.mpr fun e _ => Row.canonical_toJson e.2)

-- ---------------------------------------------------------------------------
-- Records without floats
-- ---------------------------------------------------------------------------

def Scalar.isFloat : Scalar → Bool
  | .float _ => true
  | _ => false

/-- No value of a record is a float. -/
def Record.HasNoFloats (r : Record) : Prop :=
  ∀ e ∈ r.fields.entries, ∀ s ∈ Row.scalars e.2, s.isFloat = false

instance (r : Record) : Decidable r.HasNoFloats :=
  inferInstanceAs (Decidable (∀ e ∈ r.fields.entries, ∀ s ∈ Row.scalars e.2, s.isFloat = false))

/-- A scalar that is no float can be read back exactly at any depth. -/
theorem Scalar.legible_toJson {s : Scalar} (h : s.isFloat = false) (depth : Nat) :
    s.toJson.Legible depth := by
  cases s with
  | bool b => exact .bool b
  | int n =>
    have hLow := n.le_toInt
    have hHigh := n.toInt_lt
    exact .number (Json.Reader.number_chars_integer ⟨by omega, by omega⟩)
  | float x => cases h
  | text s => exact .string s

theorem RowElement.legible_toJson {element : RowElement}
    (h : ∀ s ∈ element.scalars, s.isFloat = false) : Json.Legible 1 element.toJson := by
  cases element with
  | scalar s => exact Scalar.legible_toJson (h s List.mem_cons_self) 1
  | nested items =>
    exact .array (List.forall_mem_map.mpr fun s hs => Scalar.legible_toJson (h s hs) 0)

/-- A row without floats can be read back exactly, two levels being all it needs. -/
theorem Row.legible_toJson {row : Row} (h : ∀ s ∈ Row.scalars row, s.isFloat = false) :
    Json.Legible 2 (Row.toJson row) := by
  have hElements : ∀ element ∈ row, Json.Legible 1 element.toJson := fun element hElement =>
    RowElement.legible_toJson fun s hs => h s (List.mem_flatMap.mpr ⟨element, hElement, hs⟩)
  rcases Row.toJson_eq row with ⟨element, rfl, hShown⟩ | hShown
  · rw [hShown]
    exact (hElements element List.mem_cons_self).mono (by decide)
  · rw [hShown]
    exact .array (List.forall_mem_map.mpr hElements)

/-- **One record.** Without floats the text of a record is read as its JSON value. -/
theorem Record.read_render_toJson {r : Record} (h : r.HasNoFloats) :
    Json.read r.toJson.render = .ok r.toJson := by
  have hLegible : Json.Legible 3 r.toJson :=
    .object (List.forall_mem_map.mpr fun e he => Row.legible_toJson (h e he))
  exact Json.read_render r.canonical_toJson (hLegible.mono (by decide))

/-- The JSON value of a flattened record is flattened into that record again, from whatever file. -/
theorem flatten_toJson_of_flatten {document : Json} {path : String} {r : Record}
    (hDoc : document.Canonical) (h : flatten document path = .ok r)
    (hGid : r.fields.get? identifierField = some [.scalar (.int r.identifier)]) (path' : String) :
    flatten r.toJson path' = .ok { r with source := some path' } := by
  have hReadable : r.Readable := readable_of_flatten hDoc h
  have hFlat := flattening_toJson (r := { r with source := some path' }) hReadable hGid rfl
  exact flatten_eq_ok_iff.mpr ⟨_, _, rfl, hFlat⟩

-- ---------------------------------------------------------------------------
-- The printed records
-- ---------------------------------------------------------------------------

/-- What a line is for a record. -/
structure Record.PrintedAs (r : Record) (line : String) : Prop where
  /-- It holds no control characters, so it neither ends nor breaks off early. -/
  plain : Plain line.toList
  /-- Without floats it is read as the JSON value of the record. -/
  read : r.HasNoFloats → Json.read line = .ok r.toJson
  /-- The members of the value are the fields, in the order of the bytes of their names. -/
  members : ∃ members, r.toJson = .object members ∧ members.map Prod.fst = r.fields.keys ∧
    (r.fields.keys.map Text.utf8Bytes).Pairwise (List.Lex (· < ·))
  /-- A record without floats that comes from a document and whose `gid` field is still the
  identifier is flattened from the line again. -/
  flattens : ∀ (document : Json) (path path' : String), document.Canonical →
    flatten document path = .ok r →
    r.fields.get? identifierField = some [.scalar (.int r.identifier)] → r.HasNoFloats →
      ∃ v, Json.read line = .ok v ∧ flatten v path' = .ok { r with source := some path' }

/-- What a record is rendered as is what its printed line has to be. -/
theorem Record.printedAs_render (r : Record) : r.PrintedAs r.toJson.render where
  plain := by
    rw [Json.render, String.toList_ofList]
    exact r.toJson.plain_chars
  read := Record.read_render_toJson
  members := by
    refine ⟨_, rfl, ?_, ?_⟩
    · rw [List.map_map]
      rfl
    · rw [KeyMap.keys, Entries.keys, List.map_map]
      exact List.pairwise_map.mpr (r.fields.ascending.imp Text.lt_iff_utf8Bytes_lt.mp)
  flattens document path path' hDoc h hGid hFloats :=
    ⟨_, read_render_toJson hFloats, flatten_toJson_of_flatten hDoc h hGid path'⟩

/--
**Records as lines of JSON.**

1. The text of a list of records splits at the line ends into one line for each record, in order,
   and nothing after the last line end.
2. No line has a line end or another control character in it, and without floats a line is read as
   the JSON value of its record; flattening what is read gives back a record that was flattened
   itself.
3. A run that shows records as JSON prints this text for those that it loads.
-/
theorem record_lines_read_back (records : List Record) :
    (∃ lines : List String,
      ((Report.recordLines records).toList.splitOn '\n').map String.ofList = lines ++ [""] ∧
      List.Forall₂ Record.PrintedAs records lines) ∧
    ∀ (env : Environment) (tree : FileTree) (args : List String) (settings : Settings)
      (verbosity : Nat) (noColor : Bool) (source : SourceOptions),
      Settings.load tree env.workingDirectory env.settingsPath = .ok settings →
      CommandLine.parse args = .ok ⟨verbosity, noColor, .showRecords source true⟩ →
      loadRecords tree env.workingDirectory (settings.apply source.config) = .ok records →
        (Session.run env tree args).stdout = Report.recordLines records := by
  refine ⟨⟨_, Report.splitOn_recordLines records, ?_⟩, ?_⟩
  · rw [List.forall₂_map_right_iff, List.forall₂_same]
    exact fun r _ => r.printedAs_render
  · intro env tree args settings verbosity noColor source hSettings hArgs hRecords
    rw [Session.run_showRecords hSettings hArgs, hRecords]
    rfl

/-- Names and texts with quotes, line ends, control characters and letters beyond ASCII, the least
and the greatest integer, and nested lists: there are two lines, and the second one gives the record
back. -/
theorem record_lines_read_back_of_odd_texts :
    let document : Json := .object
      [("a \"b\"\\\n", .array [.array [.string "\x01\t\x7f"], .array []]),
       ("gid", .number (.integer (-0x8000000000000000))),
       ("é", .array [.number (.integer 0x7fffffffffffffff), .string "😀\n"])]
    let record : Record :=
      { identifier := Int64.minValue
        fields := KeyMap.ofList
          [("a \"b\"\\\n", [.nested [.text "\x01\t\x7f"], .nested []]),
           ("gid", [.scalar (.int Int64.minValue)]),
           ("é", [.nested [.int Int64.maxValue, .text "😀\n"]])]
        source := some "a.toml" }
    document.Canonical ∧ flatten document "a.toml" = .ok record ∧
      record.fields.get? identifierField = some [.scalar (.int record.identifier)] ∧
      record.HasNoFloats ∧
      ∃ first second,
        ((Report.recordLines [Record.new 1, record]).toList.splitOn '\n').map String.ofList =
          [first, second, ""] ∧
        Json.read first = .ok (.object []) ∧
        ∃ v, Json.read second = .ok v ∧
          flatten v "b.json" = .ok { record with source := some "b.json" } := by
  intro document record
  have hDoc : document.Canonical := by decide +kernel
  have hFlat : flatten document "a.toml" = .ok record := by rfl
  have hGid : record.fields.get? identifierField = some [.scalar (.int record.identifier)] := by
    rfl
  have hEmpty : (Record.new 1).HasNoFloats := by decide +kernel
  have hFloats : record.HasNoFloats := by decide +kernel
  obtain ⟨⟨lines, hLines, hPrinted⟩, -⟩ := record_lines_read_back [Record.new 1, record]
  cases hPrinted with
  | cons hFirst hRest =>
    cases hRest with
    | cons hSecond hNone =>
      cases hNone
      refine ⟨hDoc, hFlat, hGid, hFloats, _, _, hLines, hFirst.read hEmpty, ?_⟩
      exact hSecond.flattens document "a.toml" "b.json" hDoc hFlat hGid hFloats

end FoodScan
