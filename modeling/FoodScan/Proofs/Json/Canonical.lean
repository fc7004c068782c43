import FoodScan.Proofs.KeyMap
import FoodScan.Toml.Value

/-!
# Canonical values

`Json.Canonical` is what every value of the library has in common. Here it gets a check that runs,
and the two ways in which values are made are shown to end in it:

* `Json.isCanonical_iff` — the check decides it.
* `Json.normalize_canonical` — filing members by key makes a value canonical, once its numbers
  are in range; a canonical value it leaves as it is (`Json.Canonical.normalize_eq`).
* `Toml.Value.toJson_canonical` — a metadata file is handled as a canonical value.
-/

namespace FoodScan

namespace Json

-- ---------------------------------------------------------------------------
-- The check
-- ---------------------------------------------------------------------------

instance (n : Number) : Decidable n.InRange :=
  match n with
  | .integer n => inferInstanceAs (Decidable (-0x8000000000000000 ≤ n ∧ n < 0x10000000000000000))
  | .float x => inferInstanceAs (Decidable (x.isFinite = true))

mutual

/-- Whether keys ascend in every object and every number is in range. -/
def isCanonical : Json → Bool
  | .null => true
  | .bool _ => true
  | .number n => decide n.InRange
  | .string _ => true
  | .array items => areCanonical items
  | .object members => decide (Entries.Ascending members) && membersCanonical members

def areCanonical : List Json → Bool
  | [] => true
  | v :: rest => v.isCanonical && areCanonical rest

def membersCanonical : List (String × Json) → Bool
  | [] => true
  | (_, v) :: rest => v.isCanonical && membersCanonical rest

end

mutual

/-- The check for canonical values is right, by recursion over the value. -/
theorem isCanonical_iff : (v : Json) → (v.isCanonical = true ↔ v.Canonical)
  | .null => ⟨fun _ => .null, fun _ => rfl⟩
  | .bool b => ⟨fun _ => .bool b, fun _ => rfl⟩
  | .string s => ⟨fun _ => .string s, fun _ => rfl⟩
  | .number n => by
    rw [isCanonical, decide_eq_true_eq]
    exact ⟨.number, fun | .number h => h⟩
  | .array items => by
    rw [isCanonical, areCanonical_iff items]
    exact ⟨.array, fun | .array h => h⟩
  | .object members => by
    rw [isCanonical, Bool.and_eq_true, decide_eq_true_eq, membersCanonical_iff members]
    exact ⟨fun h => .object h.1 h.2, fun | .object hAsc h => ⟨hAsc, h⟩⟩

theorem areCanonical_iff :
    (items : List Json) → (areCanonical items = true ↔ ∀ v ∈ items, v.Canonical)
  | [] => by simp [areCanonical]
  | v :: rest => by
    rw [areCanonical, Bool.and_eq_true, isCanonical_iff v, areCanonical_iff rest,
      List.forall_mem_cons]

/-- So it is for the members of an object. -/
theorem membersCanonical_iff :
    (members : List (String × Json)) →
      (membersCanonical members = true ↔ ∀ e ∈ members, e.2.Canonical)
  | [] => by simp [membersCanonical]
  | (_, v) :: rest => by
    rw [membersCanonical, Bool.and_eq_true, isCanonical_iff v, membersCanonical_iff rest,
      List.forall_mem_cons]

end

instance (v : Json) : Decidable v.Canonical := decidable_of_iff _ (isCanonical_iff v)

-- ---------------------------------------------------------------------------
-- Filing members by key
-- ---------------------------------------------------------------------------

/-- Members filed by key make a canonical object of canonical values. -/
theorem canonical_ofList {members : List (String × Json)} (h : ∀ e ∈ members, e.2.Canonical) :
    (Json.object (Entries.ofList members)).Canonical :=
  .object (Entries.ascending_ofList members) fun e he => h e (Entries.mem_of_mem_ofList he)

/-- Every number is in range; members may stand in any order. -/
inductive InRange : Json → Prop where
  | null : InRange .null
  | bool (b : Bool) : InRange (.bool b)
  | number {n : Number} (h : n.InRange) : InRange (.number n)
  | string (s : String) : InRange (.string s)
  | array {items : List Json} (h : ∀ v ∈ items, InRange v) : InRange (.array items)
  | object {members : List (String × Json)} (h : ∀ e ∈ members, InRange e.2) :
      InRange (.object members)

mutual

/-- Filing the members of every object by key leaves nothing else to ask for than numbers in
range. -/
theorem normalize_canonical : (v : Json) → v.InRange → v.normalize.Canonical
  | .null, _ => .null
  | .bool b, _ => .bool b
  | .string s, _ => .string s
  | .number _, .number h => .number h
  | .array items, .array h => .array (normalizeItems_canonical items h)
  | .object members, .object h => canonical_ofList (normalizeMembers_canonical members h)

/-- The items of a list become canonical. -/
theorem normalizeItems_canonical :
    (items : List Json) → (∀ v ∈ items, v.InRange) → ∀ v ∈ normalizeItems items, v.Canonical
  | [], _ => by simp [normalizeItems]
  | v :: rest, h => by
    obtain ⟨hHead, hRest⟩ := List.forall_mem_cons.mp h
    rw [normalizeItems, List.forall_mem_cons]
    exact ⟨normalize_canonical v hHead, normalizeItems_canonical rest hRest⟩

/-- The members of an object become canonical. -/
theorem normalizeMembers_canonical :
    (members : List (String × Json)) → (∀ e ∈ members, e.2.InRange) →
      ∀ e ∈ normalizeMembers members, e.2.Canonical
  | [], _ => by simp [normalizeMembers]
  | (_, v) :: rest, h => by
    obtain ⟨hHead, hRest⟩ := List.forall_mem_cons.mp h
    rw [normalizeMembers, List.forall_mem_cons]
    exact ⟨normalize_canonical v hHead, normalizeMembers_canonical rest hRest⟩

end

/-- Items are brought into order one by one. -/
theorem normalizeItems_eq_map (items : List Json) :
    normalizeItems items = items.map normalize := by
  induction items with
  | nil => rfl
  | cons v rest ih => rw [normalizeItems, ih, List.map_cons]

/-- Members are brought into order one by one, under their keys. -/
theorem normalizeMembers_eq_map (members : List (String × Json)) :
    normalizeMembers members = members.map fun e => (e.1, e.2.normalize) := by
  induction members with
  | nil => rfl
  | cons e rest ih => rw [normalizeMembers, ih, List.map_cons]

/-- Canonical values are filed already. -/
theorem Canonical.normalize_eq {v : Json} (h : v.Canonical) : v.normalize = v := by
  induction h with
  | null | bool | string | number => rfl
  | @array items _ ih =>
    have hItems : items.map normalize = items.map id := List.map_congr_left ih
    rw [normalize, normalizeItems_eq_map, hItems, List.map_id]
  | @object members hAscending _ ih =>
    have hMembers : members.map (fun e => (e.1, e.2.normalize)) = members.map id :=
      List.map_congr_left fun e he => Prod.ext rfl (ih e he)
    rw [normalize, normalizeMembers_eq_map, hMembers, List.map_id,
      Entries.ofList_of_ascending hAscending]

end Json

-- ---------------------------------------------------------------------------
-- Metadata files
-- ---------------------------------------------------------------------------

namespace Toml.Value

mutual

/-- A value of a metadata file is handled as a canonical value: integers have 64 bits, and floats
that JSON cannot write are gone. -/
theorem toJson_canonical : (v : Value) → v.toJson.Canonical
  | .string s => .string s
  | .boolean b => .bool b
  | .datetime d => .string d.text
  | .integer n => by
    refine .number ⟨?_, ?_⟩
    · -- signed integers of 64 bits are within what JSON texts can give
      have := Int64.le_toInt n
      omega
    · have := Int64.toInt_lt n
      omega
  | .float x => by
    rw [toJson]
    split
    · exact .number ‹_›
    · exact .null
  | .array items => .array (itemsToJson_canonical items)
  | .table entries => Json.canonical_ofList (entriesToJson_canonical entries)

theorem itemsToJson_canonical : (items : List Value) → ∀ v ∈ itemsToJson items, v.Canonical
  | [] => by simp [itemsToJson]
  | v :: rest => by
    rw [itemsToJson, List.forall_mem_cons]
    exact ⟨toJson_canonical v, itemsToJson_canonical rest⟩

theorem entriesToJson_canonical :
    (entries : List (String × Value)) → ∀ e ∈ entriesToJson entries, e.2.Canonical
  | [] => by simp [entriesToJson]
  | (_, v) :: rest => by
    rw [entriesToJson, List.forall_mem_cons]
    exact ⟨toJson_canonical v, entriesToJson_canonical rest⟩

end

end Toml.Value

end FoodScan
