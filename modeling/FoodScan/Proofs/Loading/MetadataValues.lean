import FoodScan.Proofs.Json.Canonical
import FoodScan.Proofs.Loading.AllOrNothing
import FoodScan.Proofs.Query.Alike
import FoodScan.Proofs.Query.Writing
import FoodScan.Proofs.Record.Leaves
import FoodScan.Proofs.Toml.Reader
import FoodScan.Proofs.Toml.Value

/-!
# From the values of a file to those of a record

A metadata file is turned into a document, and the document into a record. Here the document is
taken out: the row of a field holds the values that the TOML defines it with, each of the same kind
and with the same value (`Flattening.rel_lastDefinition?`). What has no scalar, such as a float that
is not finite, cannot be hidden by this: every definition must have a row, that of a name that is
defined once more included (`not_flattening_of_holdsNonFinite`).

Main result: `metadata_values_are_kept`.
-/

namespace FoodScan

-- ---------------------------------------------------------------------------
-- Values of a metadata file
-- ---------------------------------------------------------------------------

/-- The scalar that a value of a metadata file is. A float must be finite; a date or time is its
normal text. -/
def Scalar.ofToml? : Toml.Value → Option Scalar
  | .string s => some (.text s)
  | .integer n => some (.int n)
  | .float x => if x.isFinite then some (.float x) else none
  | .boolean b => some (.bool b)
  | .datetime d => some (.text d.text)
  | .array _ => none
  | .table _ => none

namespace Toml.Value

mutual

/-- The values in an array, those of its arrays included, in their order; of any other value,
itself. -/
def leaves : Value → List Value
  | .array items => leavesOf items
  | .string s => [.string s]
  | .integer n => [.integer n]
  | .float x => [.float x]
  | .boolean b => [.boolean b]
  | .datetime d => [.datetime d]
  | .table entries => [.table entries]

def leavesOf : List Value → List Value
  | [] => []
  | v :: rest => v.leaves ++ leavesOf rest

end

/-- A float that is not finite stands somewhere, at any depth. -/
inductive HoldsNonFinite : Value → Prop
  | float {x : Binary64} (h : x.isFinite = false) : HoldsNonFinite (.float x)
  | item {items : List Value} {v : Value} (hMem : v ∈ items) (h : HoldsNonFinite v) :
    HoldsNonFinite (.array items)
  | entry {entries : List (String × Value)} {e : String × Value} (hMem : e ∈ entries)
    (h : HoldsNonFinite e.2) : HoldsNonFinite (.table entries)

/-- What an entry of a file defines: a table the names of its entries, in key order, and any other
value its own. -/
def definitionsOf (e : String × Value) : List (String × Value) :=
  match e.2 with
  | .table entries => Entries.ofList entries
  | _ => [e]

/-- What the table of a file defines, in key order. -/
def definitions : Value → List (String × Value)
  | .table entries => (Entries.ofList entries).flatMap definitionsOf
  | _ => []

/-- The last definition of a name, in key order. -/
def lastDefinition? (name : String) (v : Value) : Option Value :=
  v.definitions.reverse.lookup name

-- ---------------------------------------------------------------------------
-- The document of a file
-- ---------------------------------------------------------------------------

theorem leavesOf_eq_flatMap (items : List Value) : leavesOf items = items.flatMap leaves := by
  induction items with
  | nil => rfl
  | cons v rest ih => rw [leavesOf, ih, List.flatMap_cons]

mutual

/-- Translating a value to JSON keeps its leaves and their order. -/
theorem leaves_toJson : (v : Value) → v.toJson.leaves = v.leaves.map toJson
  | .string _ => rfl
  | .integer _ => rfl
  | .boolean _ => rfl
  | .datetime _ => rfl
  | .table _ => rfl
  | .float x => by
    rw [leaves, List.map_singleton, toJson]
    split <;> rfl
  | .array items => leavesOf_itemsToJson items

/-- Translating a list keeps the leaves of its items. -/
theorem leavesOf_itemsToJson :
    (items : List Value) → Json.leavesOf (itemsToJson items) = (leavesOf items).map toJson
  | [] => rfl
  | v :: rest => by
    rw [itemsToJson, Json.leavesOf, leavesOf, List.map_append, leaves_toJson v,
      leavesOf_itemsToJson rest]

end

/-- **One value.** The same scalar is read from a value and from its JSON value. -/
theorem ofJson?_toJson (v : Value) : Scalar.ofJson? v.toJson = Scalar.ofToml? v := by
  cases v with
  | integer n => simp [toJson, Scalar.ofJson?, Scalar.ofToml?]
  | float x => cases hFinite : x.isFinite <;> simp [toJson, Scalar.ofJson?, Scalar.ofToml?, hFinite]
  | _ => rfl

/-- Translating a member keeps what it defines. -/
theorem definitionsOf_toJson (key : String) (v : Value) :
    FoodScan.definitionsOf (key, v.toJson) =
      (definitionsOf (key, v)).map fun e => (e.1, e.2.toJson) := by
  cases v with
  | table entries =>
    rw [definitionsOf, ← Entries.ofList_map, ← entriesToJson_eq_map]
    rfl
  | float x =>
    rw [toJson]
    split <;> simp [FoodScan.definitionsOf, definitionsOf, toJson, *]
  | _ => rfl

/-- The document of a file defines what the file does. -/
theorem definitions_toJson (entries : List (String × Value)) :
    FoodScan.definitions (Entries.ofList (entriesToJson entries)) =
      (table entries).definitions.map fun e => (e.1, e.2.toJson) := by
  rw [entriesToJson_eq_map, Entries.ofList_map, FoodScan.definitions, definitions,
    List.flatMap_map, List.map_flatMap]
  exact List.flatMap_congr fun e _ => definitionsOf_toJson e.1 e.2

/-- Only a table has a document that is a table. -/
theorem eq_table_of_toJson {v : Value} {members : List (String × Json)}
    (h : v.toJson = .object members) :
    ∃ entries, v = .table entries ∧ members = Entries.ofList (entriesToJson entries) := by
  cases v with
  | table entries => exact ⟨entries, rfl, (Json.object.inj h).symm⟩
  | float x =>
    rw [toJson] at h
    split at h <;> cases h
  | _ => cases h

-- ---------------------------------------------------------------------------
-- Floats that are not finite
-- ---------------------------------------------------------------------------

/-- A value that holds one has a leaf without a scalar: the float, or a table that holds it. -/
theorem HoldsNonFinite.exists_leaf {v : Value} (h : v.HoldsNonFinite) :
    ∃ leaf ∈ v.leaves, Scalar.ofToml? leaf = none := by
  induction h with
  | @float x hx => exact ⟨.float x, by simp [leaves], by simp [Scalar.ofToml?, hx]⟩
  | @item items v hMem _ ih =>
    obtain ⟨leaf, hLeaf, hNone⟩ := ih
    refine ⟨leaf, ?_, hNone⟩
    rw [leaves, leavesOf_eq_flatMap]
    exact List.mem_flatMap.mpr ⟨v, hMem, hLeaf⟩
  | @entry entries e _ _ _ => exact ⟨.table entries, by simp [leaves], rfl⟩

/-- In a well-formed table, a definition holds it: sorting by key drops nothing. -/
theorem HoldsNonFinite.exists_definition {entries : List (String × Value)}
    (hWell : (table entries).WellFormed) (h : (table entries).HoldsNonFinite) :
    ∃ e ∈ (table entries).definitions, e.2.HoldsNonFinite := by
  obtain ⟨hKeys, hValues⟩ : (Entries.keys entries).Nodup ∧ ∀ e ∈ entries, e.2.WellFormed := by
    cases hWell with
    | table hKeys hValues => exact ⟨hKeys, hValues⟩
  cases h with
  | @entry _ e hMem hHolds =>
    have hSorted : e ∈ Entries.ofList entries := (Entries.ofList_perm hKeys).mem_iff.mpr hMem
    obtain ⟨key, v⟩ := e
    -- a table defines its entries, and one of these holds the float
    cases v with
    | table inner =>
      cases hHolds with
      | @entry _ f hf hHolds =>
        cases hValues _ hMem with
        | table hInnerKeys _ =>
          have hInner : f ∈ Entries.ofList inner := (Entries.ofList_perm hInnerKeys).mem_iff.mpr hf
          exact ⟨f, List.mem_flatMap.mpr ⟨_, hSorted, hInner⟩, hHolds⟩
    | _ => exact ⟨_, List.mem_flatMap.mpr ⟨_, hSorted, List.mem_singleton.mpr rfl⟩, hHolds⟩

end Toml.Value

-- ---------------------------------------------------------------------------
-- Rows
-- ---------------------------------------------------------------------------

/-- The scalars that are read are those that the metadata values stand for. -/
theorem ScalarsRead.map_some {values : List Toml.Value} {scalars : List Scalar}
    (h : ScalarsRead (values.map Toml.Value.toJson) scalars) :
    scalars.map some = values.map Scalar.ofToml? := by
  rw [ScalarsRead, List.forall₂_map_left_iff] at h
  induction h with
  | nil => rfl
  | cons hHead _ ih => rw [List.map_cons, List.map_cons, ih, ← hHead, Toml.Value.ofJson?_toJson]

/-- **One row.** The row that is read from the value of a file holds the scalars of its leaves. -/
theorem Row.Reads.scalars_eq {v : Toml.Value} {row : Row} (h : Row.Reads v.toJson row) :
    row.scalars.map some = v.leaves.map Scalar.ofToml? :=
  ScalarsRead.map_some (v.leaves_toJson ▸ h.leaves)

/-- A value that gives a row holds no float that is not finite. -/
theorem Row.Reads.not_holdsNonFinite {v : Toml.Value} {row : Row} (h : Row.Reads v.toJson row) :
    ¬ v.HoldsNonFinite := by
  intro hHolds
  obtain ⟨leaf, hLeaf, hNone⟩ := hHolds.exists_leaf
  have hMem : none ∈ row.scalars.map some := by
    rw [h.scalars_eq, ← hNone]
    exact List.mem_map_of_mem hLeaf
  simp at hMem

namespace Flattening

variable {entries : List (String × Toml.Value)} {path : String} {r : Record} {rows : Entries Row}

/-- **Fields.** A field holds the values of the last definition of its name. -/
theorem rel_lastDefinition?
    (h : Flattening (Entries.ofList (Toml.Value.entriesToJson entries)) path r rows)
    (name : String) :
    Option.Rel (fun v row => row.scalars.map some = v.leaves.map Scalar.ofToml?)
      ((Toml.Value.table entries).lastDefinition? name) (r.fields.get? name) := by
  have hRel := h.rel_get? name
  rw [Toml.Value.definitions_toJson, ← List.map_reverse, Entries.lookup_map,
    ← Toml.Value.lastDefinition?] at hRel
  generalize (Toml.Value.table entries).lastDefinition? name = last at hRel ⊢
  generalize r.fields.get? name = row at hRel ⊢
  cases last with
  | none => cases hRel; exact .none
  | some v => cases hRel with | some hReads => exact .some hReads.scalars_eq

/-- Every definition has a row, so none holds a float that is not finite. -/
theorem not_holdsNonFinite
    (h : Flattening (Entries.ofList (Toml.Value.entriesToJson entries)) path r rows)
    (hWell : (Toml.Value.table entries).WellFormed) :
    ¬ (Toml.Value.table entries).HoldsNonFinite := by
  intro hHolds
  obtain ⟨e, he, hHolds⟩ := hHolds.exists_definition hWell
  have hRead := h.read
  rw [Toml.Value.definitions_toJson, List.forall₂_map_left_iff] at hRead
  obtain ⟨f, -, -, hReads⟩ := exists_of_mem_right hRead.flip he
  exact hReads.not_holdsNonFinite hHolds

end Flattening

-- ---------------------------------------------------------------------------
-- Records
-- ---------------------------------------------------------------------------

/-- The scalars of rows that documents have are finite. -/
theorem Row.Readable.isNonFinite_scalars {row : Row} (h : Row.Readable row) :
    ∀ s ∈ row.scalars, s.isNonFinite = false :=
  (h.reads).of_toJson.2

/-- The rows of a loaded record are rows that documents have. -/
theorem readable_of_loadFile {tree : FileTree} {workingDirectory : List String} {schema : Schema}
    {format : MetadataFormat} {path : String} {r : Record}
    (h : loadFile tree workingDirectory schema format path = .ok r) : r.Readable := by
  have hOutcome := loadFile_eq_iff.mp h
  generalize hResult : Except.ok r = result at hOutcome
  cases hOutcome with
  | @flattened _ value _ _ _ => exact readable_of_flatten value.toJson_canonical hResult.symm
  | _ => cases hResult

/-- Asking a field for a value that it has finds the record. -/
theorem Query.matchesRecord_of_mem {mode : Mode} {r : Record} {name : String} {row : Row}
    {s : Scalar} (hRow : r.fields.get? name = some row) (hs : s ∈ row.scalars)
    (hSame : s.same s = true) : (Query.mk mode [(name, .one s)]).matchesRecord r = true := by
  have hHolds : Row.holds s row = true := by
    rw [Row.holds_eq_any, List.any_eq_true]
    exact ⟨s, hs, hSame⟩
  rw [matchesRecord_eq]
  cases mode with
  | and => simpa [verdict_and_iff, hRow, Criterion.meets] using hHolds
  | or => simpa [verdict_or_iff, hRow, Criterion.meets] using hHolds

/--
**No value is invented, changed or lost between a file and a record.**

1. Files are read as well-formed values: no key stands twice in a table.
2. A record has the fields that its file defines, and each holds the values of the last definition
   of its name, in their order: integers, truth values, finite floats and texts as they are, dates
   and times as their normal texts.
3. A file with a float that is not finite has no record, wherever it stands and whether or not its
   name is defined once more.
4. Every value of a record that was loaded equals itself, and the query that asks its field for it
   can be written and finds the record, in both modes.
-/
theorem metadata_values_are_kept :
    (∀ (text : String) (value : Toml.Value), Toml.parse text = some value → value.WellFormed) ∧
    (∀ (value : Toml.Value) (path : String) (r : Record), flatten value.toJson path = .ok r →
      ∀ name, Option.Rel (fun v row => row.scalars.map some = v.leaves.map Scalar.ofToml?)
        (value.lastDefinition? name) (r.fields.get? name)) ∧
    (∀ (value : Toml.Value) (path : String), value.WellFormed → value.HoldsNonFinite →
      ∃ e, flatten value.toJson path = .error e) ∧
    (∀ (tree : FileTree) (workingDirectory : List String) (schema : Schema)
      (format : MetadataFormat) (path : String) (r : Record),
      loadFile tree workingDirectory schema format path = .ok r →
        ∀ name row s, r.fields.get? name = some row → s ∈ row.scalars →
          s.same s = true ∧ ∀ mode,
            Query.ofJson mode (.object [(name, s.toJson)]) = .ok ⟨mode, [(name, .one s)]⟩ ∧
              (Query.mk mode [(name, .one s)]).matchesRecord r = true) := by
  refine ⟨fun _ _ => Toml.parse_wellFormed, ?_, ?_, ?_⟩
  · intro value path r hFlatten name
    obtain ⟨members, rows, hMembers, hFlattening⟩ := flatten_eq_ok_iff.mp hFlatten
    obtain ⟨entries, rfl, rfl⟩ := Toml.Value.eq_table_of_toJson hMembers
    exact hFlattening.rel_lastDefinition? name
  · intro value path hWell hHolds
    cases hFlatten : flatten value.toJson path with
    | error e => exact ⟨e, rfl⟩
    | ok r =>
      obtain ⟨members, rows, hMembers, hFlattening⟩ := flatten_eq_ok_iff.mp hFlatten
      obtain ⟨entries, rfl, rfl⟩ := Toml.Value.eq_table_of_toJson hMembers
      exact absurd hHolds (hFlattening.not_holdsNonFinite hWell)
  · intro tree workingDirectory schema format path r hLoad name row s hRow hs
    have hReadable := readable_of_loadFile hLoad (name, row) (KeyMap.get?_eq_some_iff.mp hRow)
    have hFinite := hReadable.isNonFinite_scalars s hs
    -- only a finite scalar equals itself, which is why a NaN could not be found again
    have hSame := Scalar.same_self hFinite
    refine ⟨hSame, fun mode => ⟨?_, Query.matchesRecord_of_mem hRow hs hSame⟩⟩
    have hTerm := Criterion.Reads.one (Scalar.ofJson?_toJson_of_finite hFinite)
    exact Query.ofJson_eq_ok_iff.mpr ⟨rfl, .cons ⟨rfl, hTerm⟩ .nil⟩

/-- A file whose table defines `a` once more, with values that differ in nothing but their kinds,
and one in which the definition that is replaced is a NaN. -/
theorem metadata_values_are_kept_of_replaced_definition :
    let text : String := "gid=1\na=true\n[t]\na=[[1.0,1],['1']]"
    let tree : FileTree := .directory [("a.toml", .file text.toUTF8)]
    let one : Scalar := .float (.ofInt 1)
    let hidden : Toml.Value :=
      .table [("gid", .integer 1), ("a", .float .nan), ("t", .table [("a", .boolean true)])]
    (∃ (value : Toml.Value) (r : Record), Toml.parse text = some value ∧ value.WellFormed ∧
      loadFile tree [] (.keywords []) .toml "a.toml" = .ok r ∧
      (value.lastDefinition? "a").map (fun v => v.leaves.map Scalar.ofToml?) =
        some [some one, some (.int 1), some (.text "1")] ∧
      one.same one = true ∧
      ∀ mode, (Query.mk mode [("a", .one one)]).matchesRecord r = true) ∧
    ∃ e, flatten hidden.toJson "a.toml" = .error e := by
  intro text tree one hidden
  obtain ⟨hParsed, hKept, hRefused, hFound⟩ := metadata_values_are_kept
  constructor
  · have hText : tree.readText [] "a.toml" = .ok text :=
      FileTree.readText_of_toUTF8 (FileTree.find_eq_ok_iff.mpr ⟨["a.toml"], by decide +kernel, rfl⟩)
    have hRead : ((Toml.parse text).map fun value =>
        (flatten value.toJson "a.toml").toOption.bind fun r => r.fields.get? "a") =
          some (some [.nested [one, .int 1], .nested [.text "1"]]) := by decide +kernel
    obtain ⟨value, hToml, hFields⟩ := Option.map_eq_some_iff.mp hRead
    obtain ⟨r, hRecord, hRow⟩ := Option.bind_eq_some_iff.mp hFields
    have hFlatten := toOption_eq_some_iff.mp hRecord
    have hLoad : loadFile tree [] (.keywords []) .toml "a.toml" = .ok r :=
      hFlatten ▸ loadFile_eq_iff.mpr (.flattened hText hToml rfl)
    obtain ⟨hSame, hQuery⟩ := hFound tree [] (.keywords []) .toml "a.toml" r hLoad "a" _ one hRow
      List.mem_cons_self
    refine ⟨value, r, hToml, hParsed text value hToml, hLoad, ?_, hSame,
      fun mode => (hQuery mode).2⟩
    have hRel := hKept value "a.toml" r hFlatten "a"
    rw [hRow] at hRel
    generalize value.lastDefinition? "a" = last at hRel ⊢
    cases hRel with
    | some hScalars => exact congrArg some hScalars.symm
  · have hWell : hidden.WellFormed := by
      -- the hidden definition is well-formed too, so what refuses it is the NaN alone
      refine .table (by decide) ?_
      simp only [List.forall_mem_cons]
      refine ⟨.integer 1, .float _, .table (by decide) ?_, by simp⟩
      exact List.forall_mem_singleton.mpr (.boolean true)
    exact hRefused hidden "a.toml" hWell (.entry (e := ("a", .float .nan)) (by simp) (.float rfl))

end FoodScan
