import FoodScan.Proofs.Json.Canonical
import FoodScan.Proofs.Record.Flattening

/-!
# Printed records read back

A printed record is a document again: its fields stand at the top level, each row as it is shown.
Flattening it finds every row, since the rows of documents are read back from what they are shown
as, and the sorted members give the fields in the order in which the record has them.

Main result: `flatten_toJson_eq` — flattening the printed form of a flattened record gives the
record back, as long as its `gid` field still is the identifier.
-/

namespace FoodScan

/-- A record with readable rows, its identifier in its `gid` field, is what its printed form comes
to. -/
theorem flattening_toJson {r : Record} {path : String}
    (hReadable : r.Readable)
    (hGid : r.fields.get? identifierField = some [.scalar (.int r.identifier)])
    (hSource : r.source = some path) :
    Flattening (r.fields.entries.map fun e => (e.1, Row.toJson e.2)) path r r.fields.entries where
  identifier := by
    have hLookup : r.fields.entries.lookup identifierField =
        some [.scalar (.int r.identifier)] := hGid
    rw [Entries.lookup_map, hLookup]
    show int64? r.identifier.toInt = some r.identifier
    exact int64?_toInt r.identifier
  read := by
    rw [definitions_toJson, List.forall₂_map_left_iff, List.forall₂_same]
    intro e he
    exact ⟨rfl, (hReadable e he).reads⟩
  fields := (KeyMap.ofList_entries r.fields).symm
  source := hSource

/--
**A flattened record survives printing.** Let a document, canonical as all that are read are
(`Json.read_canonical`, `Toml.Value.toJson_canonical`), be flattened into a record whose `gid`
field is the identifier: no table has put anything else in its place. Then the printed record,
although single elements are shown without the list around them, is flattened into the same record
again, identifier, fields, rows and source.
-/
theorem flatten_toJson_eq {d : Json} {path : String} {r : Record} (hDoc : d.Canonical)
    (h : flatten d path = .ok r)
    (hGid : r.fields.get? identifierField = some [.scalar (.int r.identifier)]) :
    flatten r.toJson path = .ok r := by
  have hReadable : r.Readable := readable_of_flatten hDoc h
  obtain ⟨members, rows, rfl, hFlat⟩ := flatten_eq_ok_iff.mp h
  exact flatten_eq_ok_iff.mpr ⟨_, _, rfl, flattening_toJson hReadable hGid hFlat.source⟩

/-- A document with a row of every shape, a table, and an integer that is too large to stay one. -/
theorem flatten_toJson_eq_of_shapes :
    let document : Json := .object
      [("empty", .array []),
       ("gid", .number (.integer 7)),
       ("groups", .array [.array [], .array [.bool true, .string "a"]]),
       ("one group", .array [.array [.number (.integer 3)]]),
       ("t", .object [("large", .number (.integer 0x8000000000000001))])]
    let record : Record :=
      { identifier := 7
        fields := KeyMap.ofList
          [("empty", [.nested []]),
           ("gid", [.scalar (.int 7)]),
           ("groups", [.nested [], .nested [.bool true, .text "a"]]),
           ("large", [.scalar (.float (.ofInt 0x8000000000000000))]),
           ("one group", [.nested [.int 3]])]
        source := some "a.toml" }
    document.Canonical ∧ flatten document "a.toml" = .ok record ∧
      record.fields.get? identifierField = some [.scalar (.int record.identifier)] ∧
      flatten record.toJson "a.toml" = .ok record := by
  intro document record
  have hDoc : document.Canonical := by decide +kernel
  have hFlat : flatten document "a.toml" = .ok record := by rfl
  have hGid : record.fields.get? identifierField = some [.scalar (.int record.identifier)] := by
    rfl
  exact ⟨hDoc, hFlat, hGid, flatten_toJson_eq hDoc hFlat hGid⟩

end FoodScan
