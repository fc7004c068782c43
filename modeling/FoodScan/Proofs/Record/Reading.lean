import FoodScan.Proofs.Scalar
import FoodScan.Proofs.Traversal
import FoodScan.Record.Flatten

/-!
# Rows and the JSON values they come from

`Row.Reads v row` says without any order of checks that a value is read as a row: a scalar as
itself, a list of scalars as one group, a list of lists of scalars as a group for each.

* `Row.ofJson_eq_ok_iff` — `Row.ofJson` accepts a value with a row exactly if it reads as that
  row.
* `Row.Reads.readable` / `Row.Readable.reads` — the rows read from documents are those of one
  scalar or of groups, all of whose floats are finite; and each of these is read back from the
  way it is shown, although a single group is shown without the list around it.

That floats are finite rests on documents being canonical: an integer of 64 bits that no signed one
can hold becomes the float nearest to it, and a larger one might become an infinity.
-/

namespace FoodScan

-- ---------------------------------------------------------------------------
-- Lists
-- ---------------------------------------------------------------------------

/-- The items of a list are read as scalars, one by one. -/
def ScalarsRead (items : List Json) (scalars : List Scalar) : Prop :=
  List.Forall₂ (fun v s => Scalar.ofJson? v = some s) items scalars

/-- A list gives its scalars exactly when each item is one. -/
theorem scalarsOf_eq_ok_iff {items : List Json} {scalars : List Scalar} :
    scalarsOf items = .ok scalars ↔ ScalarsRead items scalars := by
  refine mapM_eq_ok_iff_of fun v s => ?_
  cases Scalar.ofJson? v <;> simp

/-- The inner lists of a list, if its items are all lists. -/
theorem mapM_items?_eq_some_iff {items : List Json} {inners : List (List Json)} :
    items.mapM Json.items? = some inners ↔ items = inners.map .array := by
  rw [mapM_eq_some_iff]
  constructor
  · intro h
    induction h with
    | nil => rfl
    | @cons v inner items inners hv _ ih =>
      cases v <;> simp only [Json.items?, reduceCtorEq, Option.some.injEq] at hv
      rw [hv, ih]
      rfl
  · rintro rfl
    induction inners with
    | nil => exact .nil
    | cons inner inners ih => exact .cons rfl ih

/-- The scalars of a JSON list can be written as JSON again. -/
theorem ScalarsRead.isNonFinite {items : List Json} {scalars : List Scalar}
    (h : ScalarsRead items scalars) (hItems : ∀ v ∈ items, v.Canonical) :
    ∀ s ∈ scalars, s.isNonFinite = false := by
  intro s hs
  obtain ⟨v, hv, hRead⟩ := exists_of_mem_right h hs
  exact Scalar.isNonFinite_of_ofJson? (hItems v hv) hRead

/-- Scalars that JSON can write are read back. -/
theorem scalarsRead_toJson {scalars : List Scalar} (h : ∀ s ∈ scalars, s.isNonFinite = false) :
    ScalarsRead (scalars.map Scalar.toJson) scalars := by
  rw [ScalarsRead, List.forall₂_map_left_iff, List.forall₂_same]
  intro s hs
  rw [Scalar.ofJson?_toJson, h s hs]
  rfl

/-- Scalars are not read from lists, so a list of scalars is no list of lists. -/
theorem ScalarsRead.ne_lists {items : List Json} {scalars : List Scalar}
    (h : ScalarsRead items scalars) (inners : List (List Json)) (hne : inners ≠ []) :
    items ≠ inners.map .array := by
  rintro rfl
  obtain ⟨first, rest, rfl⟩ := List.exists_cons_of_ne_nil hne
  cases h with
  | cons hHead _ => cases hHead

-- ---------------------------------------------------------------------------
-- Rows
-- ---------------------------------------------------------------------------

namespace Row

/-- A JSON value is read as a row. -/
inductive Reads : Json → Row → Prop
  /-- A scalar is one element. -/
  | scalar {v : Json} {s : Scalar} (h : Scalar.ofJson? v = some s) : Reads v [.scalar s]
  /-- A list of scalars, empty ones included, is one group. -/
  | list {items : List Json} {scalars : List Scalar} (h : ScalarsRead items scalars) :
      Reads (.array items) [.nested scalars]
  /-- A list of lists is a group for each of them. -/
  | lists {inners : List (List Json)} {groups : List (List Scalar)} (hne : inners ≠ [])
      (h : List.Forall₂ ScalarsRead inners groups) :
      Reads (.array (inners.map .array)) (groups.map .nested)

/-- Reading inner lists one by one gives a group for each. -/
theorem forall₂_nested_iff {inners : List (List Json)} {row : Row} :
    List.Forall₂ (fun inner element => ∃ scalars, ScalarsRead inner scalars ∧
        RowElement.nested scalars = element) inners row ↔
      ∃ groups, List.Forall₂ ScalarsRead inners groups ∧ groups.map .nested = row := by
  constructor
  · intro h
    induction h with
    | nil => exact ⟨[], .nil, rfl⟩
    | cons hHead _ ih =>
      obtain ⟨scalars, hRead, rfl⟩ := hHead
      obtain ⟨groups, hGroups, rfl⟩ := ih
      exact ⟨scalars :: groups, .cons hRead hGroups, rfl⟩
  · rintro ⟨groups, hGroups, rfl⟩
    rw [List.forall₂_map_right_iff]
    exact hGroups.imp fun _ scalars hRead => ⟨scalars, hRead, rfl⟩

/-- What is no list is read as a scalar. -/
theorem ofJson_of_not_list {v : Json} {row : Row} (hv : v.items? = none) :
    Row.ofJson v = .ok row ↔ ∃ s, Scalar.ofJson? v = some s ∧ [.scalar s] = row := by
  cases v with
  | array items => cases hv
  | _ =>
    simp only [Row.ofJson]
    split <;> simp [*]

/-- A list of lists is read list by list. -/
theorem ofJson_lists {inners : List (List Json)} {row : Row} (hne : inners ≠ []) :
    Row.ofJson (.array (inners.map .array)) = .ok row ↔
      ∃ groups, List.Forall₂ ScalarsRead inners groups ∧ groups.map .nested = row := by
  obtain ⟨first, rest, rfl⟩ := List.exists_cons_of_ne_nil hne
  simp only [Row.ofJson]
  rw [mapM_items?_eq_some_iff.mpr rfl, ← forall₂_nested_iff]
  refine mapM_eq_ok_iff_of fun inner element => ?_
  simp only [← scalarsOf_eq_ok_iff]
  cases scalarsOf inner <;> simp

/-- Any other list is read as one list of scalars. -/
theorem ofJson_list {items : List Json} {row : Row}
    (hItems : ∀ inners, inners ≠ [] → items ≠ inners.map .array) :
    Row.ofJson (.array items) = .ok row ↔
      ∃ scalars, ScalarsRead items scalars ∧ [.nested scalars] = row := by
  simp only [Row.ofJson, ← scalarsOf_eq_ok_iff]
  split
  · rename_i first rest hLists
    exact absurd (mapM_items?_eq_some_iff.mp hLists) (hItems _ (by simp))
  · cases scalarsOf items <;> simp

/-- **Reading rows.** A value is accepted with a row if and only if it reads as that row. -/
theorem ofJson_eq_ok_iff {v : Json} {row : Row} : Row.ofJson v = .ok row ↔ Reads v row := by
  constructor
  · intro h
    cases hItems : v.items? with
    | none =>
      obtain ⟨s, hScalar, rfl⟩ := (ofJson_of_not_list hItems).mp h
      exact .scalar hScalar
    | some items =>
      obtain rfl := Scalar.eq_array_of_items? hItems
      -- a list of lists only is read list by list, and any other item by item
      by_cases hLists : ∃ inners, inners ≠ [] ∧ items = inners.map .array
      · obtain ⟨inners, hne, rfl⟩ := hLists
        obtain ⟨groups, hGroups, rfl⟩ := (ofJson_lists hne).mp h
        exact .lists hne hGroups
      · push Not at hLists
        obtain ⟨scalars, hScalars, rfl⟩ := (ofJson_list hLists).mp h
        exact .list hScalars
  · intro h
    cases h with
    | @scalar _ s hScalar =>
      exact (ofJson_of_not_list (Scalar.items?_eq_none hScalar)).mpr ⟨s, hScalar, rfl⟩
    | @list items scalars hScalars =>
      exact (ofJson_list hScalars.ne_lists).mpr ⟨scalars, hScalars, rfl⟩
    | @lists inners groups hne hGroups => exact (ofJson_lists hne).mpr ⟨groups, hGroups, rfl⟩

-- ---------------------------------------------------------------------------
-- Rows that documents have
-- ---------------------------------------------------------------------------

/-- The rows that documents have: one scalar, one group, or several groups, with no float that JSON
cannot write. -/
inductive Readable : Row → Prop
  | scalar {s : Scalar} (h : s.isNonFinite = false) : Readable [.scalar s]
  | group {scalars : List Scalar} (h : ∀ s ∈ scalars, s.isNonFinite = false) :
      Readable [.nested scalars]
  | groups {groups : List (List Scalar)} (hLength : 2 ≤ groups.length)
      (h : ∀ group ∈ groups, ∀ s ∈ group, s.isNonFinite = false) : Readable (groups.map .nested)

/-- Whatever a value of a document is read as is such a row. -/
theorem Reads.readable {v : Json} {row : Row} (hv : v.Canonical) (h : Reads v row) :
    Readable row := by
  cases h with
  | scalar hScalar => exact .scalar (Scalar.isNonFinite_of_ofJson? hv hScalar)
  | list hScalars =>
    cases hv with
    | array hItems => exact .group (hScalars.isNonFinite hItems)
  | @lists inners groups hne hGroups =>
    have hFinite : ∀ group ∈ groups, ∀ s ∈ group, s.isNonFinite = false := by
      intro group hGroup
      obtain ⟨inner, hInner, hScalars⟩ := exists_of_mem_right hGroups hGroup
      cases hv with
      | array hItems =>
        cases hItems (.array inner) (List.mem_map_of_mem hInner) with
        | array hInnerItems => exact hScalars.isNonFinite hInnerItems
    -- a single list is a group like a plain list of scalars
    match groups, hGroups, hFinite with
    | [], hGroups, _ => exact absurd (List.forall₂_nil_right_iff.mp hGroups) hne
    | [group], _, hFinite => exact .group (hFinite group List.mem_cons_self)
    | _ :: _ :: _, _, hFinite => exact .groups (by simp) hFinite

/-- A row of several elements is shown as their list. -/
theorem toJson_of_two_le {row : Row} (h : 2 ≤ row.length) : Row.toJson row = Row.listJson row :=
  match row, h with
  | _ :: _ :: _, _ => rfl

/-- Several groups are shown as a list of lists. -/
theorem toJson_groups {groups : List (List Scalar)} (h : 2 ≤ groups.length) :
    Row.toJson (groups.map .nested) =
      .array ((groups.map (List.map Scalar.toJson)).map .array) := by
  rw [toJson_of_two_le (by simpa using h), Row.listJson, List.map_map, List.map_map]
  rfl

/-- **Reading back.** Such a row is read from the way it is shown. One group is shown as the list
of its scalars, several as a list of lists, and each of the two forms is read as what it shows. -/
theorem Readable.reads {row : Row} (h : Readable row) : Reads (Row.toJson row) row := by
  cases h with
  | @scalar s hs =>
    refine .scalar ?_
    show Scalar.ofJson? s.toJson = some s
    rw [Scalar.ofJson?_toJson, hs]
    rfl
  | group hScalars => exact .list (scalarsRead_toJson hScalars)
  | @groups groups hLength hFinite =>
    rw [toJson_groups hLength]
    refine .lists (fun hEmpty => ?_) ?_
    · rw [List.map_eq_nil_iff.mp hEmpty] at hLength
      simp at hLength
    · rw [List.forall₂_map_left_iff, List.forall₂_same]
      intro group hGroup
      exact scalarsRead_toJson (hFinite group hGroup)

end Row

end FoodScan
