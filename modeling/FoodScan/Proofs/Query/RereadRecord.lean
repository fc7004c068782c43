import FoodScan.Proofs.Query.Alike
import FoodScan.Proofs.Record.Flattening
import FoodScan.Proofs.Record.Leaves

/-!
# Printed records give the same answers

Any record can be printed, also one that no document has been flattened into: with empty rows, with
rows of several values, with values beside groups, with floats that JSON cannot write. Its printed
form is not always a document, and flattening it does not always give the record back. But where it
gives any record, that one has the same values under the same names, and no query tells the two
apart.

* `exists_flatten_toJson_iff` — which printed records are documents again.
* `fields_of_flatten_toJson` — the record that comes out has the fields of the one that was printed,
  each with the same values in the same order.

Main result: `flatten_toJson_keeps_answers`.
-/

namespace FoodScan

-- ---------------------------------------------------------------------------
-- The identifier
-- ---------------------------------------------------------------------------

theorem Scalar.toInt64?_toJson {s : Scalar} {n : Int64} :
    s.toJson.toInt64? = some n ↔ s = .int n := by
  cases s with
  | int m => simp [Scalar.toJson, Json.toInt64?]
  | float x => cases hFin : x.isFinite <;> simp [Scalar.toJson, Json.toInt64?, hFin]
  | _ => simp [Scalar.toJson, Json.toInt64?]

/-- A row is shown as an integer only if that integer is its single value. -/
theorem Row.toInt64?_toJson {row : Row} {n : Int64} :
    (Row.toJson row).toInt64? = some n ↔ row = [.scalar (.int n)] := by
  match row with
  | [] => simp [Row.toJson, Row.listJson, Json.toInt64?]
  | [.scalar s] =>
    show s.toJson.toInt64? = some n ↔ _
    simp [Scalar.toInt64?_toJson]
  | [.nested items] => simp [Row.toJson, RowElement.toJson, Json.toInt64?]
  | _ :: _ :: _ => simp [Row.toJson, Row.listJson, Json.toInt64?]

-- ---------------------------------------------------------------------------
-- Printed records as documents
-- ---------------------------------------------------------------------------

def Record.members (r : Record) : List (String × Json) :=
  r.fields.entries.map fun e => (e.1, Row.toJson e.2)

variable {r r' : Record} {path : String}

/-- The identifier of a printed record is the one integer in its `gid` field. -/
theorem identifier_members_iff {n : Int64} :
    (r.members.lookup identifierField).bind Json.toInt64? = some n ↔
      r.fields.get? identifierField = some [.scalar (.int n)] := by
  rw [Record.members, Entries.lookup_map, KeyMap.get?]
  cases r.fields.entries.lookup identifierField with
  | none => simp
  | some row => simp [Row.toInt64?_toJson]

/-- A row is read from a definition exactly when it is read from the list it is printed as. -/
theorem read_members_iff {rows : Entries Row} :
    List.Forall₂ (fun e f => f.1 = e.1 ∧ Row.Reads e.2 f.2) (definitions r.members) rows ↔
      List.Forall₂ (fun e f => f.1 = e.1 ∧ Row.Reads (Row.toJson e.2) f.2)
        r.fields.entries rows := by
  rw [Record.members, definitions_toJson, List.forall₂_map_left_iff]

/-- **Which printed records are documents.** Those with one integer for `gid`, whose values JSON can
write and whose rows are not mixed. -/
theorem exists_flatten_toJson_iff (r : Record) (path : String) :
    (∃ r', flatten r.toJson path = .ok r') ↔
      (∃ n, r.fields.get? identifierField = some [.scalar (.int n)]) ∧
      ∀ name row, r.fields.get? name = some row →
        (∀ s ∈ row.scalars, s.isNonFinite = false) ∧ ¬ row.Mixed := by
  simp only [KeyMap.get?_eq_some_iff, ← Row.exists_reads_toJson_iff]
  constructor
  · rintro ⟨r', h⟩
    obtain ⟨members, rows, hMembers, hFlat⟩ := flatten_eq_ok_iff.mp h
    obtain rfl : r.members = members := Json.object.inj hMembers
    refine ⟨⟨r'.identifier, ?_⟩, fun name row hRow => ?_⟩
    · exact KeyMap.get?_eq_some_iff.mp (identifier_members_iff.mp hFlat.identifier)
    · obtain ⟨f, -, -, hReads⟩ := exists_of_mem_right (read_members_iff.mp hFlat.read).flip hRow
      exact ⟨f.2, hReads⟩
  · rintro ⟨⟨n, hGid⟩, hRows⟩
    -- each row is read on its own, and all of them make up the fields
    have hEach : ∀ e ∈ r.fields.entries, ∃ f : String × Row,
        f.1 = e.1 ∧ Row.Reads (Row.toJson e.2) f.2 := by
      intro e he
      obtain ⟨row', hReads⟩ := hRows e.1 e.2 he
      exact ⟨(e.1, row'), rfl, hReads⟩
    obtain ⟨rows, hRead⟩ := exists_forall₂ hEach
    have hFlat : Flattening r.members path ⟨n, KeyMap.ofList rows, some path⟩ rows :=
      ⟨identifier_members_iff.mpr (KeyMap.get?_eq_some_iff.mpr hGid), read_members_iff.mpr hRead,
        rfl, rfl⟩
    exact ⟨_, flatten_eq_ok_iff.mpr ⟨_, _, rfl, hFlat⟩⟩

/-- Flattening a printed record gives fields of the same names in the same order, and in each of
them the same values. -/
theorem fields_of_flatten_toJson (h : flatten r.toJson path = .ok r') :
    List.Forall₂ (fun e f => f.1 = e.1 ∧ Row.Alike e.2 f.2)
      r.fields.entries r'.fields.entries := by
  obtain ⟨members, rows, hMembers, hFlat⟩ := flatten_eq_ok_iff.mp h
  obtain rfl : r.members = members := Json.object.inj hMembers
  have hRead := read_members_iff.mp hFlat.read
  -- the names ascend already, so the fields are the rows as they were read
  have hAsc : Entries.Ascending rows := by
    have hKeys : rows.map Prod.fst = r.fields.entries.map Prod.fst :=
      map_fst_forall₂ (R := fun row row' => Row.Reads (Row.toJson row) row') hRead
    rw [Entries.Ascending, ← List.pairwise_map (f := Prod.fst) (R := (· < ·)), hKeys,
      List.pairwise_map]
    exact r.fields.ascending
  have hEntries : r'.fields.entries = rows := by
    rw [hFlat.fields]
    exact Entries.ofList_of_ascending hAsc
  rw [hEntries]
  exact hRead.imp fun e f hField => ⟨hField.1, .of_scalars_eq hField.2.of_toJson.1⟩

/--
**Printing keeps the answers.** Let any record be printed.

1. Its printed form is flattened into a record if and only if its `gid` field is one integer, none
   of its values is an infinity or a NaN, and no row has values by themselves as well as groups.
2. Then the record that comes out has that integer for its identifier and fields of the same names,
   and every query, in either mode, gets from both the same answer and misses in both the same
   fields, in the same order.
-/
theorem flatten_toJson_keeps_answers (r : Record) (path : String) :
    ((∃ r', flatten r.toJson path = .ok r') ↔
      (∃ n, r.fields.get? identifierField = some [.scalar (.int n)]) ∧
      ∀ name row, r.fields.get? name = some row →
        (∀ s ∈ row.scalars, s.isNonFinite = false) ∧ ¬ row.Mixed) ∧
    ∀ r', flatten r.toJson path = .ok r' →
      r.fields.get? identifierField = some [.scalar (.int r'.identifier)] ∧
      r'.fields.keys = r.fields.keys ∧
      ∀ (q : Query) (sink : List Warning),
        (q.evaluate r' sink).1 = (q.evaluate r sink).1 ∧
        (q.evaluate r' sink).2.map Warning.field = (q.evaluate r sink).2.map Warning.field := by
  refine ⟨exists_flatten_toJson_iff r path, fun r' h => ?_⟩
  have hFields := fields_of_flatten_toJson h
  have hKeys : r'.fields.keys = r.fields.keys := map_fst_forall₂ hFields
  obtain ⟨members, rows, hMembers, hFlat⟩ := flatten_eq_ok_iff.mp h
  obtain rfl : r.members = members := Json.object.inj hMembers
  refine ⟨identifier_members_iff.mp hFlat.identifier, hKeys, fun q sink => ?_⟩
  rw [Query.evaluate_eq, Query.evaluate_eq]
  constructor
  · -- rows that are read back answer alike, field by field
    exact Query.verdict_congr_rows (fun t _ => lookup_forall₂ hFields t.1) q.mode
  · rw [List.map_append, List.map_append, Query.map_field_warningsOf, Query.map_field_warningsOf,
      hKeys]

/-- A record that no document is flattened into, with an empty row and with several values in a row;
its own identifier is not that of its `gid` field. -/
theorem flatten_toJson_keeps_answers_of_loose_rows :
    let loose : Record :=
      { identifier := 3
        fields := KeyMap.ofList
          [("gid", [.scalar (.int 7)]), ("none", []),
            ("several", [.scalar (.text "a"), .scalar (.int 1)])]
        source := none }
    let read : Record :=
      { identifier := 7
        fields := KeyMap.ofList
          [("gid", [.scalar (.int 7)]), ("none", [.nested []]),
            ("several", [.nested [.text "a", .int 1]])]
        source := some "a.toml" }
    let q : Query := ⟨.or, [("several", .one (.int 1)), ("colour", .one (.int 1))]⟩
    flatten loose.toJson "a.toml" = .ok read ∧
      loose.fields.get? identifierField = some [.scalar (.int read.identifier)] ∧
      read.fields.keys = loose.fields.keys ∧
      (q.evaluate read []).1 = (q.evaluate loose []).1 ∧ (q.evaluate read []).1 = true ∧
      (q.evaluate read []).2.map Warning.field = ["colour"] := by
  intro loose read q
  -- the row of two scalars comes back as one group of both
  have hFlat : flatten loose.toJson "a.toml" = .ok read := by rfl
  obtain ⟨hGid, hKeys, hAnswers⟩ := (flatten_toJson_keeps_answers loose "a.toml").2 read hFlat
  obtain ⟨hAnswer, hFields⟩ := hAnswers q []
  refine ⟨hFlat, hGid, hKeys, hAnswer, ?_, ?_⟩
  · rw [hAnswer]
    decide +kernel
  · rw [hFields]
    decide +kernel

end FoodScan
