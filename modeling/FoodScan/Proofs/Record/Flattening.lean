import FoodScan.Proofs.KeyMap
import FoodScan.Proofs.Record.Reading

/-!
# What flattening accepts, and the record it gives

`Flattening members path r rows` collects what an accepted document comes to: where the
identifier comes from, the row of each definition, and the fields as the map of these rows.

* `flatten_eq_ok_iff` — a document is flattened into a record exactly if it is a table with such
  a flattening.
* `Flattening.get?_eq` — a field is the row of the last definition of its name.
* `readable_of_flatten` — every row of the record of a document is one that documents have.
* `definitions_toJson` — the members of a printed record are its definitions: no row is shown as
  a table.
-/

namespace FoodScan

-- ---------------------------------------------------------------------------
-- Accepted documents
-- ---------------------------------------------------------------------------

/-- A field gets the row its value reads as. -/
theorem fieldRow_eq_ok_iff {path : String} {e : String × Json} {f : String × Row} :
    fieldRow path e = .ok f ↔ f.1 = e.1 ∧ Row.Reads e.2 f.2 := by
  obtain ⟨name, row⟩ := f
  rw [fieldRow, ← Row.ofJson_eq_ok_iff]
  cases Row.ofJson e.2 <;> simp [eq_comm]

/-- An accepted table: its identifier, the rows of its definitions, and the record of these. -/
structure Flattening (members : List (String × Json)) (path : String) (r : Record)
    (rows : Entries Row) : Prop where
  identifier : (members.lookup identifierField).bind Json.toInt64? = some r.identifier
  read       : List.Forall₂ (fun e f => f.1 = e.1 ∧ Row.Reads e.2 f.2) (definitions members) rows
  fields     : r.fields = KeyMap.ofList rows
  source     : r.source = some path

/-- **Flattening.** A document is accepted with a record if and only if it is a table that comes to
that record. -/
theorem flatten_eq_ok_iff {document : Json} {path : String} {r : Record} :
    flatten document path = .ok r ↔
      ∃ members rows, document = .object members ∧ Flattening members path r rows := by
  -- each field is read by itself, so reading them all is reading each
  have hRead : ∀ {members rows}, (definitions members).mapM (fieldRow path) = .ok rows ↔
      List.Forall₂ (fun e f => f.1 = e.1 ∧ Row.Reads e.2 f.2) (definitions members) rows :=
    mapM_eq_ok_iff_of fun _ _ => fieldRow_eq_ok_iff
  constructor
  · intro h
    cases document with
    | object members =>
      rw [flatten] at h
      split at h
      · cases h
      · rename_i identifier hId
        obtain ⟨rows, hRows, h⟩ := bind_eq_ok_iff.mp h
        cases h
        exact ⟨members, rows, rfl, hId, hRead.mp hRows, rfl, rfl⟩
    | _ => cases h
  · rintro ⟨members, rows, rfl, hId, hRows, hFields, hSource⟩
    obtain ⟨identifier, fields, source⟩ := r
    dsimp only at hId hFields hSource
    rw [flatten, hId, hFields, hSource]
    exact bind_eq_ok_iff.mpr ⟨rows, hRead.mpr hRows, rfl⟩

/-- With an identifier there is nothing else to refuse a table for than a value that has no row. -/
theorem flatten_of_identifier {members : List (String × Json)} {path : String} {identifier : Int64}
    (hId : (members.lookup identifierField).bind Json.toInt64? = some identifier) :
    (∃ r, flatten (.object members) path = .ok r) ∨
      ∃ field why, flatten (.object members) path = .error (.unsupportedValue path field why) := by
  rw [flatten, hId]
  cases hRows : (definitions members).mapM (fieldRow path) with
  | ok rows => exact .inl ⟨_, rfl⟩
  | error e =>
    -- the only error of a row is that of a value no row can hold
    obtain ⟨_, d, _, _, hRow, _⟩ := mapM_eq_error_iff.mp hRows
    refine .inr ⟨d.1, ?_⟩
    rw [fieldRow] at hRow
    split at hRow
    · cases hRow
    · rename_i why _
      cases hRow
      exact ⟨why, rfl⟩

/-- A definition of a document is a document's value. -/
theorem canonical_of_mem_definitions {members : List (String × Json)}
    (hDoc : (Json.object members).Canonical) {e : String × Json} (he : e ∈ definitions members) :
    e.2.Canonical := by
  obtain ⟨f, hf, he⟩ := List.mem_flatMap.mp he
  cases hDoc with
  | object _ hMembers =>
    have hValue := hMembers f hf
    unfold definitionsOf at he
    split at he
    · rename_i table hTable
      rw [hTable] at hValue
      cases hValue with
      | object _ hTableMembers => exact hTableMembers e he
    · rw [List.mem_singleton.mp he]
      exact hValue

/-- The rows of a record are rows that documents have. -/
def Record.Readable (r : Record) : Prop := ∀ e ∈ r.fields.entries, Row.Readable e.2

namespace Flattening

variable {members : List (String × Json)} {path : String} {r : Record} {rows : Entries Row}

/-- A field reads the last definition of its name, and there is one for each name defined. -/
theorem rel_get? (h : Flattening members path r rows) (name : String) :
    Option.Rel Row.Reads ((definitions members).reverse.lookup name) (r.fields.get? name) := by
  rw [h.fields, KeyMap.get?_ofList]
  exact lookup_forall₂ (List.forall₂_reverse_iff.mpr h.read) name

/-- A field is the row of the last definition of its name. -/
theorem get?_eq (h : Flattening members path r rows) (name : String) :
    r.fields.get? name =
      ((definitions members).reverse.lookup name).bind fun v => (Row.ofJson v).toOption := by
  have hRel := h.rel_get? name
  generalize (definitions members).reverse.lookup name = last at hRel ⊢
  generalize r.fields.get? name = row at hRel ⊢
  cases hRel with
  | none => rfl
  | @some v row hReads =>
    rw [Option.bind_some, Row.ofJson_eq_ok_iff.mpr hReads]
    rfl

/-- The fields have the names that are defined. -/
theorem mem_keys_iff (h : Flattening members path r rows) {name : String} :
    name ∈ r.fields.keys ↔ name ∈ Entries.keys (definitions members) := by
  rw [h.fields, KeyMap.mem_keys_ofList, Entries.keys, map_fst_forall₂ h.read, Entries.keys]

/-- The rows flattened from a canonical document are rows that documents have. -/
theorem readable (h : Flattening members path r rows) (hDoc : (Json.object members).Canonical) :
    r.Readable := by
  intro e he
  rw [h.fields] at he
  obtain ⟨d, hd, -, hReads⟩ := exists_of_mem_right h.read (Entries.mem_of_mem_ofList he)
  exact hReads.readable (canonical_of_mem_definitions hDoc hd)

end Flattening

/-- **Readable records.** Every row of the record of a document is one that documents have. -/
theorem readable_of_flatten {d : Json} {path : String} {r : Record} (hDoc : d.Canonical)
    (h : flatten d path = .ok r) : r.Readable := by
  obtain ⟨members, rows, rfl, hFlat⟩ := flatten_eq_ok_iff.mp h
  exact hFlat.readable hDoc

-- ---------------------------------------------------------------------------
-- Printed records
-- ---------------------------------------------------------------------------

/-- No row is shown as a table. -/
theorem definitionsOf_toJson (name : String) (row : Row) :
    definitionsOf (name, Row.toJson row) = [(name, Row.toJson row)] := by
  -- no scalar is written as a table; a float that has no JSON number is written as null
  have hScalar : ∀ s : Scalar, definitionsOf (name, s.toJson) = [(name, s.toJson)] := by
    intro s
    cases s with
    | float x => cases hFin : x.isFinite <;> simp [Scalar.toJson, hFin, definitionsOf]
    | _ => rfl
  cases row with
  | nil => rfl
  | cons element rest =>
    cases rest with
    | nil =>
      cases element with
      | scalar s => exact hScalar s
      | nested items => rfl
    | cons second rest => rfl

/-- The members of a printed record are its definitions. -/
theorem definitions_toJson (entries : Entries Row) :
    definitions (entries.map fun e => (e.1, Row.toJson e.2)) =
      entries.map fun e => (e.1, Row.toJson e.2) := by
  induction entries with
  | nil => rfl
  | cons e rest ih =>
    rw [List.map_cons, definitions, List.flatMap_cons, definitionsOf_toJson, ← definitions, ih]
    rfl

end FoodScan
