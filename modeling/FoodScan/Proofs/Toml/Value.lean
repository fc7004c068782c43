import FoodScan.Proofs.KeyMap
import FoodScan.Toml.Value

/-!
# Metadata values and the JSON values they are handled as

The values of a table are turned one by one, and a key finds what the last entry under it is turned
into (`lookup_ofList_entriesToJson`).

An integer of a metadata file has 64 signed bits, and it is the only thing that becomes an integer;
so whatever is an integer of a document can be taken for one of 64 signed bits
(`exists_toInt64?_of_toJson`). A document that was read from elsewhere promises no such thing.
-/

namespace FoodScan.Toml.Value

/-- Entries become JSON one by one, under their keys. -/
theorem entriesToJson_eq_map (entries : List (String × Value)) :
    entriesToJson entries = entries.map fun e => (e.1, e.2.toJson) := by
  induction entries with
  | nil => rfl
  | cons e rest ih =>
    obtain ⟨key, v⟩ := e
    rw [entriesToJson, ih, List.map_cons]

/-- The last value of a key is what JSON has under it. -/
theorem lookup_ofList_entriesToJson (key : String) (entries : List (String × Value)) :
    (Entries.ofList (entriesToJson entries)).lookup key =
      (entries.reverse.lookup key).map toJson := by
  rw [Entries.lookup_ofList, entriesToJson_eq_map, ← List.map_reverse, Entries.lookup_map]

/-- Integers have 64 signed bits. -/
theorem exists_toInt64?_of_toJson {v : Value} {n : Int}
    (h : v.toJson = .number (.integer n)) : ∃ m, v.toJson.toInt64? = some m := by
  cases v with
  | integer m => exact ⟨m, int64?_toInt m⟩
  | float x =>
    -- a float becomes a float or null
    rw [toJson] at h
    split at h <;> cases h
  | _ => cases h

end FoodScan.Toml.Value
