import FoodScan.Proofs.Record.Definitions
import FoodScan.Proofs.Record.Flattening
import FoodScan.Proofs.Record.Refusal

/-!
# Documents that are refused

A document is flattened if it is a table with an identifier all of whose definitions have rows
(`DocumentFits`), and refused for the first thing that is wrong with it otherwise
(`DocumentRefused`). Every value is checked, also one that a later definition of the same field
takes the place of.

* `refused_of_flatten_eq_error`, `DocumentRefused.flatten_eq` — what flattening fails for.
* `exists_flatten_iff` — when it does not fail.

Main result: `flatten_refuses_first_offender`.
-/

namespace FoodScan

/-- The document's own `gid` is an integer of 64 signed bits. -/
def HasIdentifier (members : List (String × Json)) : Prop :=
  ∃ n : Int, members.lookup identifierField = some (.number (.integer n)) ∧
    -0x8000000000000000 ≤ n ∧ n < 0x8000000000000000

/-- A document has an identifier when its member of that name is a 64-bit integer. -/
theorem hasIdentifier_iff {members : List (String × Json)} :
    HasIdentifier members ↔
      ∃ n, (members.lookup identifierField).bind Json.toInt64? = some n := by
  constructor
  · rintro ⟨n, hLookup, hLow, hHigh⟩
    rw [hLookup]
    -- the bounds are those of 64 signed bits, so the conversion cannot fail
    cases hInt : int64? n with
    | some m => exact ⟨m, hInt⟩
    | none =>
      rw [int64?_eq_none_iff] at hInt
      omega
  · rintro ⟨m, h⟩
    obtain ⟨v, hLookup, hInt⟩ := Option.bind_eq_some_iff.mp h
    cases v with
    | number number =>
      cases number with
      | integer n =>
        obtain rfl := int64?_eq_some_iff.mp hInt
        exact ⟨m.toInt, hLookup, m.le_toInt, m.toInt_lt⟩
      | float x => cases hInt
    | _ => cases hInt

/-- A document that is flattened: a table with an identifier whose definitions all have rows. -/
def DocumentFits (document : Json) : Prop :=
  ∃ members, document = .object members ∧ HasIdentifier members ∧
    ∀ d, Definition.Of members d → Row.Fits d.value

/-- What is wrong with a document that is not. -/
inductive DocumentRefused (path : String) : Json → LoadError → Prop
  | notTable {document : Json} (h : document.kind ≠ .object) :
      DocumentRefused path document (.malformed path (.notTable document.kind))
  | noIdentifier {members : List (String × Json)} (h : ¬ HasIdentifier members) :
      DocumentRefused path (.object members) (.missingIdentifier path)
  /-- Everything that is read before has a row, whether or not it counts in the end. -/
  | noRow {members : List (String × Json)} {d : Definition} {why : Unsupported}
      (hId : HasIdentifier members) (h : Definition.Of members d) (hWhy : Row.Refused d.value why)
      (hFirst : ∀ e, Definition.Of members e → e.Before d → Row.Fits e.value) :
      DocumentRefused path (.object members) (.unsupportedValue path d.field why)

/-- A definition is refused with its file and field, for what its value is refused for. -/
theorem fieldRow_field_eq_error_iff {path : String} {d : Definition} {e : LoadError} :
    fieldRow path (d.field, d.value) = .error e ↔
      ∃ why, Row.Refused d.value why ∧ e = .unsupportedValue path d.field why := by
  simp only [← Row.ofJson_eq_error_iff]
  rw [fieldRow]
  cases Row.ofJson d.value <;> simp [eq_comm]

theorem exists_fieldRow_field_iff {path : String} {d : Definition} :
    (∃ row, fieldRow path (d.field, d.value) = .ok row) ↔ Row.Fits d.value := by
  rw [Row.fits_iff, fieldRow]
  cases Row.ofJson d.value <;> simp

theorem Json.exists_members {d : Json} (h : d.kind = .object) :
    ∃ members, d = .object members := by
  cases d with
  | object members => exact ⟨members, rfl⟩
  | _ => cases h

/-- A document that is no table is refused by its kind. -/
theorem flatten_of_not_table {d : Json} {path : String} (h : d.kind ≠ .object) :
    flatten d path = .error (.malformed path (.notTable d.kind)) := by
  cases d with
  | object members => exact absurd rfl h
  | _ => rfl

/-- A missing identifier is reported before any field is looked at. -/
theorem flatten_of_not_hasIdentifier {members : List (String × Json)} {path : String}
    (h : ¬ HasIdentifier members) :
    flatten (.object members) path = .error (.missingIdentifier path) := by
  rw [flatten]
  split
  · rfl
  · exact absurd (hasIdentifier_iff.mpr ⟨_, ‹_›⟩) h

/-- With an identifier, only the rows are left to fail. -/
theorem flatten_eq_error_iff_of_hasIdentifier {members : List (String × Json)} {path : String}
    {e : LoadError} (hId : HasIdentifier members) :
    flatten (.object members) path = .error e ↔
      ((Definition.listed members).mapM fun d => fieldRow path (d.field, d.value)) = .error e := by
  obtain ⟨n, hn⟩ := hasIdentifier_iff.mp hId
  rw [flatten, hn, Definition.definitions_eq_map, List.mapM_map]
  simp only [Function.comp_def]
  cases (Definition.listed members).mapM fun d => fieldRow path (d.field, d.value) <;>
    simp [bind, Except.bind, pure, Except.pure]

/-- Flattening fails for something that is wrong. -/
theorem refused_of_flatten_eq_error {d : Json} {path : String} {e : LoadError}
    (hDoc : d.Canonical) (h : flatten d path = .error e) : DocumentRefused path d e := by
  by_cases hTable : d.kind = .object
  · obtain ⟨members, rfl⟩ := Json.exists_members hTable
    by_cases hId : HasIdentifier members
    · obtain ⟨before, first, after, hSplit, hError, hBefore⟩ :=
        mapM_eq_error_iff.mp ((flatten_eq_error_iff_of_hasIdentifier hId).mp h)
      obtain ⟨why, hWhy, rfl⟩ := fieldRow_field_eq_error_iff.mp hError
      have hOrder := Definition.pairwise_listed hDoc
      -- the list of definitions is in order, so what stands before the offender is what comes
      -- before it
      rw [hSplit] at hOrder
      refine .noRow hId (Definition.mem_listed_iff.mp (by simp [hSplit])) hWhy ?_
      intro earlier hEarlier hLess
      rw [← Definition.mem_listed_iff, hSplit] at hEarlier
      refine exists_fieldRow_field_iff.mp (hBefore earlier ?_)
      exact (Definition.mem_before_iff hOrder).mpr ⟨hEarlier, hLess⟩
    · rw [flatten_of_not_hasIdentifier hId] at h
      cases h
      exact .noIdentifier hId
  · rw [flatten_of_not_table hTable] at h
    cases h
    exact .notTable hTable

/-- Flattening fails for whatever is wrong. -/
theorem DocumentRefused.flatten_eq {d : Json} {path : String} {e : LoadError} (hDoc : d.Canonical)
    (h : DocumentRefused path d e) : flatten d path = .error e := by
  cases h with
  | notTable hTable => exact flatten_of_not_table hTable
  | noIdentifier hId => exact flatten_of_not_hasIdentifier hId
  | noRow hId hOf hWhy hFirst =>
    obtain ⟨before, after, hSplit⟩ := List.append_of_mem (Definition.mem_listed_iff.mpr hOf)
    have hOrder := Definition.pairwise_listed hDoc
    rw [hSplit] at hOrder
    rw [flatten_eq_error_iff_of_hasIdentifier hId, mapM_eq_error_iff]
    refine ⟨before, _, after, hSplit, fieldRow_field_eq_error_iff.mpr ⟨_, hWhy, rfl⟩, ?_⟩
    -- what is read earlier is what comes before in the order of definitions
    intro earlier hEarlier
    obtain ⟨hMem, hLess⟩ := (Definition.mem_before_iff hOrder).mp hEarlier
    rw [← hSplit, Definition.mem_listed_iff] at hMem
    exact exists_fieldRow_field_iff.mpr (hFirst earlier hMem hLess)

/-- A document is flattened if nothing is wrong with it. -/
theorem exists_flatten_iff {d : Json} {path : String} :
    (∃ r, flatten d path = .ok r) ↔ DocumentFits d := by
  constructor
  · rintro ⟨r, h⟩
    obtain ⟨members, rows, rfl, hFlat⟩ := flatten_eq_ok_iff.mp h
    refine ⟨members, rfl, hasIdentifier_iff.mpr ⟨_, hFlat.identifier⟩, fun d hd => ?_⟩
    have hMem : (d.field, d.value) ∈ definitions members := by
      rw [Definition.definitions_eq_map]
      exact List.mem_map_of_mem (Definition.mem_listed_iff.mpr hd)
    obtain ⟨row, -, -, hReads⟩ := exists_of_mem_right hFlat.read.flip hMem
    exact Row.fits_iff.mpr ⟨row.2, Row.ofJson_eq_ok_iff.mpr hReads⟩
  · rintro ⟨members, rfl, hId, hFits⟩
    cases hFlatten : flatten (.object members) path with
    | ok r => exact ⟨r, rfl⟩
    | error e =>
      rw [flatten_eq_error_iff_of_hasIdentifier hId, mapM_eq_error_iff] at hFlatten
      obtain ⟨before, d, after, hSplit, hError, -⟩ := hFlatten
      -- a definition that fits is not refused, so there is no offender
      have hOf : Definition.Of members d := Definition.mem_listed_iff.mp (by simp [hSplit])
      obtain ⟨row, hRow⟩ := exists_fieldRow_field_iff.mpr (hFits d hOf)
      rw [hRow] at hError
      cases hError

/--
**The first offender.** A document that is read from a file

1. is refused for what is wrong with it in the order of reading, `DocumentRefused`: it is no table,
   it has no identifier, or some value in it has no row, the first such by the bytes of the keys;
2. is flattened into a record if it is a table with an identifier all of whose values have rows, and
   only then.

The error names the kind of the document, or the field, the file and the kind of the first item
that is no scalar.
-/
theorem flatten_refuses_first_offender {document : Json} (path : String)
    (hDoc : document.Canonical) :
    (∀ e, flatten document path = .error e ↔ DocumentRefused path document e) ∧
    ((∃ r, flatten document path = .ok r) ↔ DocumentFits document) ∧
    ∀ (kind : Json.Kind) (field : String),
      LoadError.message (.malformed path (.notTable kind)) =
        "Malformed metadata file " ++ path ++ ": " ++
          ("expected a table at the top level, got " ++ kind.description) ∧
      LoadError.message (.missingIdentifier path) = path ++ " has no integer `gid`" ∧
      (∀ why, LoadError.message (.unsupportedValue path field why) =
        "Field `" ++ field ++ "` in " ++ path ++ " cannot be represented as a row: " ++
          why.message) ∧
      Unsupported.message (.found kind) = "found " ++ kind.description ∧
      Unsupported.message (.listContains kind) = "list contains " ++ kind.description ∧
      Unsupported.message (.nestedListContains kind) =
        "nested list contains " ++ kind.description :=
  ⟨fun _ => ⟨refused_of_flatten_eq_error hDoc, (·.flatten_eq hDoc)⟩, exists_flatten_iff,
    fun _ _ => ⟨rfl, rfl, fun _ => rfl, rfl, rfl, rfl⟩⟩

/-- A list of lists in a table goes wrong at a list that is nested once more, before a null in the
same list and a mixed list in a later table. The field of the same name that the document defines
itself does not save it. -/
theorem flatten_refuses_first_offender_despite_later_definition :
    let one : Json := .number (.integer 1)
    let deep : Json := .array [.array [one], .array [one, .array [], .null]]
    let document : Json := .object
      [("a", .object [("b", .array []), ("x", deep)]), ("gid", one),
       ("t", .object [("y", .array [one, .array [one]])]), ("x", one)]
    let error : LoadError := .unsupportedValue "a.toml" "x" (.nestedListContains .list)
    document.Canonical ∧ flatten document "a.toml" = .error error ∧
      DocumentRefused "a.toml" document error ∧ ¬ DocumentFits document := by
  intro one deep document error
  have hDoc : document.Canonical := by decide +kernel
  have hError : flatten document "a.toml" = .error error := rfl
  obtain ⟨hRefused, hFits, -⟩ := flatten_refuses_first_offender "a.toml" hDoc
  refine ⟨hDoc, hError, (hRefused error).mp hError, fun h => ?_⟩
  obtain ⟨r, hOk⟩ := hFits.mpr h
  rw [hError] at hOk
  cases hOk

end FoodScan
