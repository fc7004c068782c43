import FoodScan.Proofs.KeyMap
import FoodScan.Proofs.Record.Reading
import FoodScan.Query.Reading

/-!
# What queries are read from

`Alternative.Reads` and `Criterion.Reads` say which JSON values are read as which alternatives and
criteria, next to `Row.Reads`, which says it for rows: a list is a group for a row and a list of
alternatives for a query, and a group of a query is never empty.

* `Criterion.ofJson_eq_ok_iff` — `Criterion.ofJson` accepts a value with a criterion exactly if it
  reads as that criterion.
* `Query.ofJson_eq_ok_iff` — a query is accepted if all its members are.
* `Query.ofJson_eq_error_iff` — otherwise the first member in key order that is refused decides
  what is wrong.
-/

namespace FoodScan

-- ---------------------------------------------------------------------------
-- Scalars and groups
-- ---------------------------------------------------------------------------

theorem scalarFor_eq_ok_iff {field : String} {v : Json} {s : Scalar} :
    scalarFor field v = .ok s ↔ Scalar.ofJson? v = some s := by
  rw [scalarFor]
  cases Scalar.ofJson? v <;> simp

/-- An item of a group is accepted exactly when it is a scalar. -/
theorem groupItem_eq_ok_iff {field : String} {v : Json} {s : Scalar} :
    groupItem field v = .ok s ↔ Scalar.ofJson? v = some s := by
  cases v with
  | array items => simp [groupItem, Scalar.ofJson?]
  | _ =>
    rw [groupItem, scalarFor_eq_ok_iff]
    rintro items ⟨⟩

/-- A whole group is accepted exactly when all its items are scalars. -/
theorem mapM_groupItem_eq_ok_iff {field : String} {items : List Json} {scalars : List Scalar} :
    items.mapM (groupItem field) = .ok scalars ↔ ScalarsRead items scalars :=
  mapM_eq_ok_iff_of fun _ _ => groupItem_eq_ok_iff

/-- A group that must hold as a whole is any list of scalars but the empty one. -/
theorem AndGroup.ofList?_eq_some_iff {scalars : List Scalar} {group : AndGroup} :
    AndGroup.ofList? scalars = some group ↔ scalars = group.scalars := by
  obtain ⟨members, hne⟩ := group
  rw [AndGroup.ofList?]
  by_cases hEmpty : scalars = []
  · rw [dif_pos hEmpty, hEmpty]
    simp [hne.symm]
  · rw [dif_neg hEmpty]
    simp

-- ---------------------------------------------------------------------------
-- Alternatives
-- ---------------------------------------------------------------------------

namespace Alternative

/-- A JSON value is read as an alternative. -/
inductive Reads : Json → Alternative → Prop
  | one {v : Json} {s : Scalar} (h : Scalar.ofJson? v = some s) : Reads v (.one s)
  /-- A list of scalars is a group, and a group has members. -/
  | all {items : List Json} {group : AndGroup} (h : ScalarsRead items group.scalars) :
      Reads (.array items) (.all group)

/-- What is no list is read as one value. -/
theorem ofJson_of_not_list {field : String} {v : Json} (hv : v.items? = none) :
    Alternative.ofJson field v = (scalarFor field v).map .one := by
  cases v with
  | array items => cases hv
  | _ => cases hScalar : scalarFor field _ <;> simp [Alternative.ofJson, hScalar] <;> rfl

/-- A list of scalars is read as a group, unless it is empty. -/
theorem ofJson_array {field : String} {items : List Json} {scalars : List Scalar}
    (h : ScalarsRead items scalars) :
    Alternative.ofJson field (.array items) =
      match AndGroup.ofList? scalars with
      | some group => .ok (.all group)
      | none => .error (.emptyGroup field) := by
  rw [Alternative.ofJson, mapM_groupItem_eq_ok_iff.mpr h]
  rfl

/-- A value is accepted with an alternative if and only if it reads as that alternative. -/
theorem ofJson_eq_ok_iff {field : String} {v : Json} {a : Alternative} :
    Alternative.ofJson field v = .ok a ↔ Reads v a := by
  constructor
  · intro h
    cases hItems : v.items? with
    | none =>
      rw [ofJson_of_not_list hItems] at h
      obtain ⟨s, hScalar, rfl⟩ := map_eq_ok_iff.mp h
      exact .one (scalarFor_eq_ok_iff.mp hScalar)
    | some items =>
      obtain rfl := Scalar.eq_array_of_items? hItems
      obtain ⟨scalars, hScalars, -⟩ := bind_eq_ok_iff.mp h
      -- a list is read as a group of scalars, which may not be empty
      have hRead := mapM_groupItem_eq_ok_iff.mp hScalars
      rw [ofJson_array hRead] at h
      split at h
      · rename_i group hGroup
        cases h
        exact .all (AndGroup.ofList?_eq_some_iff.mp hGroup ▸ hRead)
      · cases h
  · intro h
    cases h with
    | one hScalar =>
      rw [ofJson_of_not_list (Scalar.items?_eq_none hScalar)]
      exact map_eq_ok_iff.mpr ⟨_, scalarFor_eq_ok_iff.mpr hScalar, rfl⟩
    | all hRead => rw [ofJson_array hRead, AndGroup.ofList?_eq_some_iff.mpr rfl]

end Alternative

-- ---------------------------------------------------------------------------
-- Criteria
-- ---------------------------------------------------------------------------

namespace Criterion

/-- A JSON value is read as a criterion. -/
inductive Reads : Json → Criterion → Prop
  | one {v : Json} {s : Scalar} (h : Scalar.ofJson? v = some s) : Reads v (.one s)
  | anyOf {items : List Json} {alternatives : List Alternative}
      (h : List.Forall₂ Alternative.Reads items alternatives) :
      Reads (.array items) (.anyOf alternatives)

/-- What is no list is read as one value. -/
theorem ofJson_of_not_list {field : String} {v : Json} (hv : v.items? = none) :
    Criterion.ofJson field v = (scalarFor field v).map .one := by
  cases v with
  | array items => cases hv
  | _ => cases hScalar : scalarFor field _ <;> simp [Criterion.ofJson, hScalar] <;> rfl

/-- A list is read item by item. -/
theorem ofJson_array (field : String) (items : List Json) :
    Criterion.ofJson field (.array items) =
      (items.mapM (Alternative.ofJson field)).map .anyOf := by
  rw [Criterion.ofJson]
  cases items.mapM (Alternative.ofJson field) <;> rfl

/-- **Reading criteria.** A value is accepted with a criterion if and only if it reads as that
criterion. -/
theorem ofJson_eq_ok_iff {field : String} {v : Json} {c : Criterion} :
    Criterion.ofJson field v = .ok c ↔ Reads v c := by
  have hAlternatives : ∀ {items alternatives},
      items.mapM (Alternative.ofJson field) = .ok alternatives ↔
        List.Forall₂ Alternative.Reads items alternatives :=
    mapM_eq_ok_iff_of fun _ _ => Alternative.ofJson_eq_ok_iff
  constructor
  · intro h
    cases hItems : v.items? with
    | none =>
      rw [ofJson_of_not_list hItems] at h
      obtain ⟨s, hScalar, rfl⟩ := map_eq_ok_iff.mp h
      exact .one (scalarFor_eq_ok_iff.mp hScalar)
    | some items =>
      obtain rfl := Scalar.eq_array_of_items? hItems
      rw [ofJson_array] at h
      obtain ⟨alternatives, hRead, rfl⟩ := map_eq_ok_iff.mp h
      exact .anyOf (hAlternatives.mp hRead)
  · intro h
    cases h with
    | one hScalar =>
      rw [ofJson_of_not_list (Scalar.items?_eq_none hScalar)]
      exact map_eq_ok_iff.mpr ⟨_, scalarFor_eq_ok_iff.mpr hScalar, rfl⟩
    | anyOf hRead =>
      rw [ofJson_array]
      exact map_eq_ok_iff.mpr ⟨_, hAlternatives.mpr hRead, rfl⟩

end Criterion

-- ---------------------------------------------------------------------------
-- Queries
-- ---------------------------------------------------------------------------

namespace Query

/-- A member is read as the term of its key when its value reads as a criterion. -/
theorem termOf_eq_ok_iff {e : String × Json} {t : String × Criterion} :
    termOf e = .ok t ↔ t.1 = e.1 ∧ Criterion.Reads e.2 t.2 := by
  obtain ⟨field, c⟩ := t
  rw [termOf, ← @Criterion.ofJson_eq_ok_iff e.1]
  cases Criterion.ofJson e.1 e.2 <;> simp [bind, Except.bind, pure, Except.pure, eq_comm]

theorem termOf_eq_error_iff {e : String × Json} {why : QueryError} :
    termOf e = .error why ↔ Criterion.ofJson e.1 e.2 = .error why := by
  rw [termOf]
  cases Criterion.ofJson e.1 e.2 <;> simp [bind, Except.bind, pure, Except.pure]

/-- An object is accepted with a query if and only if its members read as the terms. -/
theorem ofJson_eq_ok_iff {mode : Mode} {members : List (String × Json)} {q : Query} :
    Query.ofJson mode (.object members) = .ok q ↔
      q.mode = mode ∧
        List.Forall₂ (fun e t => t.1 = e.1 ∧ Criterion.Reads e.2 t.2) members q.terms := by
  rw [← mapM_eq_ok_iff_of fun _ _ => termOf_eq_ok_iff, Query.ofJson]
  obtain ⟨m, terms⟩ := q
  cases members.mapM termOf with
  | error why => simp [bind, Except.bind]
  | ok terms' => simp [bind, Except.bind, pure, Except.pure, eq_comm]

/-- **The first offender.** An object whose keys ascend is refused for the first of its members,
in key order, that cannot be read. -/
theorem ofJson_eq_error_iff {mode : Mode} {members : List (String × Json)} {why : QueryError}
    (hAsc : Entries.Ascending members) :
    Query.ofJson mode (.object members) = .error why ↔
      ∃ e ∈ members, Criterion.ofJson e.1 e.2 = .error why ∧
        ∀ f ∈ members, f.1 < e.1 → ∃ c, Criterion.Reads f.2 c := by
  -- members are read in order, so the first error decides; keys ascend, so before means smaller
  have hTraversal : Query.ofJson mode (.object members) = .error why ↔
      members.mapM termOf = .error why := by
    rw [Query.ofJson]
    cases members.mapM termOf <;> simp [bind, Except.bind, pure, Except.pure]
  rw [hTraversal, mapM_eq_error_iff]
  constructor
  · rintro ⟨before, e, after, rfl, hError, hBefore⟩
    refine ⟨e, by simp, termOf_eq_error_iff.mp hError, fun f hf hLt => ?_⟩
    obtain ⟨t, ht⟩ := hBefore f ((hAsc.mem_before_iff).mpr ⟨hf, hLt⟩)
    exact ⟨t.2, (termOf_eq_ok_iff.mp ht).2⟩
  · rintro ⟨e, he, hError, hBefore⟩
    obtain ⟨before, after, rfl⟩ := List.append_of_mem he
    refine ⟨before, e, after, rfl, termOf_eq_error_iff.mpr hError, fun f hf => ?_⟩
    obtain ⟨hMem, hLt⟩ := hAsc.mem_before_iff.mp hf
    obtain ⟨c, hRead⟩ := hBefore f hMem hLt
    exact ⟨(f.1, c), termOf_eq_ok_iff.mpr ⟨rfl, hRead⟩⟩

end Query

end FoodScan
