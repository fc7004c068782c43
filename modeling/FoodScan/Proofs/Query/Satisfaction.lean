import FoodScan.Proofs.Query.Evaluation
import FoodScan.Proofs.Scalar

/-!
# What it means to satisfy a query

`Query.SatisfiedBy` says which records a query asks for, layer by layer and without an order of
evaluation: a value is in a row, a row meets an alternative, a row meets a criterion, a record
satisfies a query. Each layer is tied to the function that decides it (`holds_iff`,
`Alternative.meets_iff`, `Criterion.meets_iff`, `verdict_iff`).

Main result: `collect_ids_sorted_iff_satisfiedBy` — a collection lists, strictly ascending, the
identifiers of the records that satisfy the query, and no others.
-/

namespace FoodScan

-- ---------------------------------------------------------------------------
-- Rows
-- ---------------------------------------------------------------------------

/-- A value is in a row: by itself, or as a member of a group. -/
def Row.Contains (row : Row) (s : Scalar) : Prop :=
  (∃ t, RowElement.scalar t ∈ row ∧ t.Equals s) ∨
    ∃ items, RowElement.nested items ∈ row ∧ ∃ t ∈ items, t.Equals s

/-- A row holds a scalar when it contains it, alone or in a group. -/
theorem Row.holds_iff {s : Scalar} {row : Row} : Row.holds s row = true ↔ row.Contains s := by
  rw [Row.holds, List.any_eq_true]
  constructor
  · rintro ⟨element, hMem, hHolds⟩
    cases element with
    | scalar t => exact Or.inl ⟨t, hMem, Scalar.same_iff_equals.mp hHolds⟩
    | nested items =>
      obtain ⟨t, ht, hSame⟩ := List.any_eq_true.mp hHolds
      exact Or.inr ⟨items, hMem, t, ht, Scalar.same_iff_equals.mp hSame⟩
  · rintro (⟨t, hMem, hEq⟩ | ⟨items, hMem, t, ht, hEq⟩)
    · exact ⟨_, hMem, Scalar.same_iff_equals.mpr hEq⟩
    · exact ⟨_, hMem, List.any_eq_true.mpr ⟨t, ht, Scalar.same_iff_equals.mpr hEq⟩⟩

-- ---------------------------------------------------------------------------
-- Criteria
-- ---------------------------------------------------------------------------

/-- A value is met where it is present, a group where all its values are. -/
def Alternative.MetBy (row : Row) : Alternative → Prop
  | .one s => row.Contains s
  | .all group => ∀ s ∈ group.scalars, row.Contains s

theorem Alternative.meets_iff {row : Row} {a : Alternative} :
    a.meets row = true ↔ a.MetBy row := by
  cases a with
  | one s => exact Row.holds_iff
  | all group =>
    rw [Alternative.meets, List.all_eq_true]
    exact forall₂_congr fun s _ => Row.holds_iff

/-- A value is met where it is present, alternatives where one of them is met. -/
def Criterion.MetBy (row : Row) : Criterion → Prop
  | .one s => row.Contains s
  | .anyOf alternatives => ∃ a ∈ alternatives, a.MetBy row

/-- A criterion evaluates to true exactly when the row meets it. -/
theorem Criterion.meets_iff {row : Row} {c : Criterion} : c.meets row = true ↔ c.MetBy row := by
  cases c with
  | one s => exact Row.holds_iff
  | anyOf alternatives =>
    rw [Criterion.meets, List.any_eq_true]
    exact exists_congr fun a => and_congr_right fun _ => Alternative.meets_iff

-- ---------------------------------------------------------------------------
-- Queries
-- ---------------------------------------------------------------------------

namespace Query

/-- In `and` mode every term whose field the record has is met, in `or` mode some such term. -/
def SatisfiedBy (q : Query) (r : Record) : Prop :=
  match q.mode with
  | .and => ∀ t ∈ q.terms, ∀ row, r.fields.get? t.1 = some row → t.2.MetBy row
  | .or => ∃ t ∈ q.terms, ∃ row, r.fields.get? t.1 = some row ∧ t.2.MetBy row

/-- The verdict is true exactly when the record satisfies the query. -/
theorem verdict_iff {q : Query} {r : Record} :
    verdict q.mode r q.terms = true ↔ q.SatisfiedBy r := by
  unfold SatisfiedBy
  cases q.mode with
  | and =>
    rw [verdict_and_iff]
    exact forall₂_congr fun t _ => forall₂_congr fun row _ => Criterion.meets_iff
  | or =>
    rw [verdict_or_iff]
    exact exists_congr fun t => and_congr_right fun _ => exists_congr fun row =>
      and_congr_right fun _ => Criterion.meets_iff

/--
**Collecting is exact.** Whatever the records and the query, the collected identifiers ascend
strictly, and one of them is there if and only if some record that bears it satisfies the query.
-/
theorem collect_ids_sorted_iff_satisfiedBy (records : List Record) (q : Query) :
    (q.collect records).ids.Pairwise (· < ·) ∧
      ∀ i : Int64, i ∈ (q.collect records).ids ↔
        ∃ r ∈ records, r.identifier = i ∧ q.SatisfiedBy r := by
  refine ⟨collect_ids_ascending records q, fun i => ?_⟩
  rw [mem_collect_ids]
  exact exists_congr fun r => and_congr_right fun _ => and_congr_right fun _ => verdict_iff

end Query

end FoodScan
