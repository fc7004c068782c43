import FoodScan.Proofs.Record.Reading

/-!
# The values in a row and in what it is shown as

`Json.leaves` lists what stands in a list of lists in reading order. A row that is read from a JSON
value holds the scalars of its leaves (`Row.Reads.leaves`), and a row is shown as a JSON value whose
leaves are its scalars (`Row.leaves_toJson`). So whatever a shown row is read back as, groups may
have come or gone, but the values are the same and in the same order (`Row.Reads.of_toJson`).

* `Row.exists_reads_toJson_iff` — a shown row is read back if and only if JSON can write all its
  values and it does not mix values with groups.
* `Row.Reads.of_toJson` — and then it is read as a row of the same values.
-/

namespace FoodScan

-- ---------------------------------------------------------------------------
-- Leaves
-- ---------------------------------------------------------------------------

namespace Json

mutual

/-- The values in a list, those of its lists included; of any other value, itself. -/
def leaves : Json → List Json
  | .array items => leavesOf items
  | .null => [.null]
  | .bool b => [.bool b]
  | .number n => [.number n]
  | .string s => [.string s]
  | .object members => [.object members]

def leavesOf : List Json → List Json
  | [] => []
  | v :: rest => v.leaves ++ leavesOf rest

end

theorem leavesOf_eq_flatMap (items : List Json) : leavesOf items = items.flatMap leaves := by
  induction items with
  | nil => rfl
  | cons v rest ih => rw [leavesOf, ih, List.flatMap_cons]

theorem leaves_array (items : List Json) : (array items).leaves = items.flatMap leaves :=
  leavesOf_eq_flatMap items

theorem leaves_of_not_list {v : Json} (h : v.items? = none) : v.leaves = [v] := by
  cases v with
  | array items => cases h
  | _ => rfl

end Json

@[simp] theorem Scalar.leaves_toJson (s : Scalar) : s.toJson.leaves = [s.toJson] :=
  Json.leaves_of_not_list (Scalar.items?_toJson s)

theorem Scalar.leaves_map_toJson (scalars : List Scalar) :
    (scalars.map Scalar.toJson).flatMap Json.leaves = scalars.map Scalar.toJson := by
  simp [List.flatMap_map, ← List.map_eq_flatMap]

-- ---------------------------------------------------------------------------
-- Reading
-- ---------------------------------------------------------------------------

/-- Items that are read as scalars are leaves. -/
theorem ScalarsRead.leaves {items : List Json} {scalars : List Scalar}
    (h : ScalarsRead items scalars) : items.flatMap Json.leaves = items := by
  induction h with
  | nil => rfl
  | cons hHead _ ih =>
    rw [List.flatMap_cons, ih, Json.leaves_of_not_list (Scalar.items?_eq_none hHead)]
    rfl

/-- Scalars are read back from their JSON values as themselves, if JSON can write them all. -/
theorem scalarsRead_toJson_iff {scalars scalars' : List Scalar} :
    ScalarsRead (scalars.map Scalar.toJson) scalars' ↔
      scalars' = scalars ∧ ∀ s ∈ scalars, s.isNonFinite = false := by
  constructor
  · intro h
    rw [ScalarsRead, List.forall₂_map_left_iff] at h
    induction h with
    | nil => simp
    | @cons s s' rest rest' hHead _ ih =>
      obtain ⟨rfl, hRest⟩ := ih
      rw [Scalar.ofJson?_toJson] at hHead
      split at hHead
      · cases hHead
      · rename_i hFinite
        obtain rfl := Option.some.inj hHead
        exact ⟨rfl, List.forall_mem_cons.mpr ⟨Bool.eq_false_of_not_eq_true hFinite, hRest⟩⟩
  · rintro ⟨rfl, hFinite⟩
    exact scalarsRead_toJson hFinite

namespace Row

/-- A row's scalars are read from the leaves of its value, whatever its shape. -/
theorem Reads.leaves {v : Json} {row : Row} (h : Reads v row) :
    ScalarsRead v.leaves row.scalars := by
  cases h with
  | @scalar v s hScalar =>
    rw [Json.leaves_of_not_list (Scalar.items?_eq_none hScalar)]
    exact .cons hScalar .nil
  | @list items scalars hScalars =>
    rw [Json.leaves_array, hScalars.leaves]
    simpa [Row.scalars, RowElement.scalars] using hScalars
  | @lists inners groups hne hGroups =>
    rw [Json.leaves_array]
    clear hne
    induction hGroups with
    | nil => exact .nil
    | @cons inner group inners groups hHead _ ih =>
      rw [List.map_cons, List.map_cons, List.flatMap_cons, Json.leaves_array, hHead.leaves]
      exact List.rel_append hHead ih

theorem leaves_elementToJson (element : RowElement) :
    element.toJson.leaves = element.scalars.map Scalar.toJson := by
  cases element with
  | scalar s => exact s.leaves_toJson
  | nested items => rw [RowElement.toJson, Json.leaves_array, Scalar.leaves_map_toJson]; rfl

/-- A row is shown as a value with its scalars for leaves, whether its only element stands by
itself or not. -/
theorem leaves_toJson (row : Row) : (Row.toJson row).leaves = row.scalars.map Scalar.toJson := by
  have hList : (Row.listJson row).leaves = row.scalars.map Scalar.toJson := by
    rw [Row.listJson, Json.leaves_array, List.flatMap_map, Row.scalars, List.map_flatMap]
    exact List.flatMap_congr fun element _ => leaves_elementToJson element
  cases row with
  | nil => exact hList
  | cons element rest =>
    cases rest with
    | nil =>
      rw [Row.scalars, List.flatMap_singleton]
      exact leaves_elementToJson element
    | cons second rest => exact hList

/-- **The same values.** Whatever a shown row is read back as holds the values of the row in their
order, and JSON can write them all. -/
theorem Reads.of_toJson {row row' : Row} (h : Reads (Row.toJson row) row') :
    row'.scalars = row.scalars ∧ ∀ s ∈ row.scalars, s.isNonFinite = false := by
  have hLeaves := h.leaves
  rw [leaves_toJson] at hLeaves
  exact scalarsRead_toJson_iff.mp hLeaves

-- ---------------------------------------------------------------------------
-- Which shown rows are read back
-- ---------------------------------------------------------------------------

/-- A row with values by themselves and groups beside them. -/
def Mixed (row : Row) : Prop :=
  (∃ s, RowElement.scalar s ∈ row) ∧ ∃ items, RowElement.nested items ∈ row

/-- A mixed row has two elements at least, one of each sort. -/
theorem Mixed.two_le {row : Row} (h : row.Mixed) : 2 ≤ row.length := by
  obtain ⟨⟨s, hs⟩, items, hItems⟩ := h
  match row with
  | [] => cases hs
  | [element] =>
    have hSame := (List.mem_singleton.mp hs).trans (List.mem_singleton.mp hItems).symm
    cases hSame
  | _ :: _ :: _ => simp

/-- A mixed row is shown as a list that is neither one of scalars nor one of lists. -/
theorem Reads.not_mixed {row row' : Row} (h : Reads (Row.toJson row) row') : ¬ row.Mixed := by
  intro hMixed
  obtain ⟨⟨s, hs⟩, items, hItems⟩ := hMixed
  rw [toJson_of_two_le (Mixed.two_le ⟨⟨s, hs⟩, items, hItems⟩), Row.listJson] at h
  have hScalar : s.toJson ∈ row.map RowElement.toJson := List.mem_map.mpr ⟨_, hs, rfl⟩
  have hGroup : Json.array (items.map Scalar.toJson) ∈ row.map RowElement.toJson :=
    List.mem_map.mpr ⟨_, hItems, rfl⟩
  -- a mixed row is shown as a list of scalars and lists, which fits neither way of reading a list
  generalize hShown : Json.array (row.map RowElement.toJson) = v at h
  cases h with
  | scalar hRead =>
    subst hShown
    cases hRead
  | list hRead =>
    obtain rfl := Json.array.inj hShown
    obtain ⟨t, -, ht⟩ := exists_of_mem_right hRead.flip hGroup
    cases ht
  | @lists inners groups hne hRead =>
    rw [Json.array.inj hShown] at hScalar
    obtain ⟨inner, -, hInner⟩ := List.mem_map.mp hScalar
    have hItems := Scalar.items?_toJson s
    rw [← hInner] at hItems
    cases hItems

/-- A row that is not mixed is all scalars or all groups. -/
theorem eq_map_of_not_mixed {row : Row} (h : ¬ row.Mixed) :
    (∃ scalars : List Scalar, row = scalars.map .scalar) ∨
      ∃ groups : List (List Scalar), row = groups.map .nested := by
  -- one scalar decides that there is no group
  by_cases hScalar : ∃ s, RowElement.scalar s ∈ row
  · left
    have hAll : ∀ element ∈ row, ∃ s, RowElement.scalar s = element := by
      intro element hElement
      cases element with
      | scalar s => exact ⟨s, rfl⟩
      | nested items => exact absurd ⟨hScalar, items, hElement⟩ h
    have hRange : row ∈ Set.range (List.map RowElement.scalar) := by
      rw [Set.range_list_map]
      exact hAll
    obtain ⟨scalars, rfl⟩ := hRange
    exact ⟨scalars, rfl⟩
  · right
    have hAll : ∀ element ∈ row, ∃ items, RowElement.nested items = element := by
      intro element hElement
      cases element with
      | scalar s => exact absurd ⟨s, hElement⟩ hScalar
      | nested items => exact ⟨items, rfl⟩
    have hRange : row ∈ Set.range (List.map RowElement.nested) := by
      rw [Set.range_list_map]
      exact hAll
    obtain ⟨groups, rfl⟩ := hRange
    exact ⟨groups, rfl⟩

theorem scalars_map_scalar (scalars : List Scalar) :
    Row.scalars (scalars.map .scalar) = scalars := by
  simp [Row.scalars, List.flatMap_map, RowElement.scalars]

theorem scalars_map_nested (groups : List (List Scalar)) :
    Row.scalars (groups.map .nested) = groups.flatten := by
  simp [Row.scalars, List.flatMap_map, RowElement.scalars, List.flatMap_id']

/-- Values by themselves are shown as a list, unless there is just one, and read as one group. -/
theorem exists_reads_scalars {scalars : List Scalar} (h : ∀ s ∈ scalars, s.isNonFinite = false) :
    ∃ row', Reads (Row.toJson (scalars.map .scalar)) row' := by
  match scalars, h with
  | [], _ => exact ⟨_, .list .nil⟩
  | [s], h => exact ⟨_, (Readable.scalar (h s List.mem_cons_self)).reads⟩
  | first :: second :: rest, h =>
    have hShown : Row.toJson ((first :: second :: rest).map .scalar) =
        .array ((first :: second :: rest).map Scalar.toJson) := by
      rw [toJson_of_two_le (by simp), Row.listJson, List.map_map]
      rfl
    rw [hShown]
    exact ⟨_, .list (scalarsRead_toJson h)⟩

/-- No groups are shown as the empty list; one and several are what documents have. -/
theorem exists_reads_groups {groups : List (List Scalar)}
    (h : ∀ group ∈ groups, ∀ s ∈ group, s.isNonFinite = false) :
    ∃ row', Reads (Row.toJson (groups.map .nested)) row' := by
  match groups, h with
  | [], _ => exact ⟨_, .list .nil⟩
  | [group], h => exact ⟨_, (Readable.group (h group List.mem_cons_self)).reads⟩
  | first :: second :: rest, h => exact ⟨_, (Readable.groups (by simp) h).reads⟩

/-- **Reading back.** A shown row is read back if and only if JSON can write all its values and it
is not mixed. -/
theorem exists_reads_toJson_iff {row : Row} :
    (∃ row', Reads (Row.toJson row) row') ↔
      (∀ s ∈ row.scalars, s.isNonFinite = false) ∧ ¬ row.Mixed := by
  constructor
  · rintro ⟨row', h⟩
    exact ⟨h.of_toJson.2, h.not_mixed⟩
  · rintro ⟨hFinite, hMixed⟩
    rcases eq_map_of_not_mixed hMixed with ⟨scalars, rfl⟩ | ⟨groups, rfl⟩
    · rw [scalars_map_scalar] at hFinite
      exact exists_reads_scalars hFinite
    · rw [scalars_map_nested] at hFinite
      exact exists_reads_groups fun group hGroup s hs =>
        hFinite s (List.mem_flatten.mpr ⟨group, hGroup, hs⟩)

end Row

end FoodScan
