import FoodScan.Proofs.Query.Warnings
import FoodScan.Proofs.Traversal

/-!
# What queries cannot tell apart

All that a query asks of a row is whether it holds this value or that, by itself or in a group. Rows
that give the same answers are `Row.Alike`; rows with the same values in whatever groups are
(`Row.Alike.of_scalars_eq`). Nothing that is built on those answers tells them apart: no criterion
(`Row.Alike.meets_eq`), and no terms that find alike rows, or none, under every name they ask for
(`Query.verdict_congr_rows`).
-/

namespace FoodScan

-- ---------------------------------------------------------------------------
-- Rows
-- ---------------------------------------------------------------------------

/-- Every value is in both rows or in neither, by itself or in a group. -/
def Row.Alike (row row' : Row) : Prop := ∀ s, Row.holds s row' = Row.holds s row

theorem RowElement.holds_eq_any (s : Scalar) (element : RowElement) :
    element.holds s = element.scalars.any fun t => t.same s := by
  cases element with
  | scalar t => simp [RowElement.holds, RowElement.scalars]
  | nested items => rfl

/-- Groups make no difference to what a row holds. -/
theorem Row.holds_eq_any (s : Scalar) (row : Row) :
    Row.holds s row = row.scalars.any fun t => t.same s := by
  rw [Row.holds, Row.scalars, List.any_flatMap]
  exact List.any_congr rfl fun element => RowElement.holds_eq_any s element

namespace Row.Alike

variable {row row' : Row}

/-- Rows with the same scalars in the same order are alike, however they are grouped. -/
theorem of_scalars_eq (h : row'.scalars = row.scalars) : row.Alike row' := by
  intro s
  rw [Row.holds_eq_any, Row.holds_eq_any, h]

/-- An alternative cannot tell alike rows apart. -/
theorem alternative_meets_eq (h : row.Alike row') (a : Alternative) :
    a.meets row' = a.meets row := by
  cases a with
  | one s => exact h s
  | all group =>
    rw [Alternative.meets, Alternative.meets]
    exact List.all_congr rfl fun s => h s

theorem meets_eq (h : row.Alike row') (c : Criterion) : c.meets row' = c.meets row := by
  cases c with
  | one s => exact h s
  | anyOf alternatives =>
    rw [Criterion.meets, Criterion.meets]
    exact List.any_congr rfl fun a => h.alternative_meets_eq a

end Row.Alike

-- ---------------------------------------------------------------------------
-- Records
-- ---------------------------------------------------------------------------

namespace Query

variable {r r' : Record}

/-- The answer to a term depends on the row of its field alone, and on that only up to likeness. -/
theorem answer_congr_row {mode : Mode} {t : String × Criterion}
    (h : Option.Rel Row.Alike (r.fields.get? t.1) (r'.fields.get? t.1)) :
    answer mode r' t = answer mode r t := by
  rw [answer, answer]
  generalize r.fields.get? t.1 = before at h ⊢
  generalize r'.fields.get? t.1 = after at h ⊢
  cases h with
  | none => rfl
  | some hRow => exact hRow.meets_eq t.2

/-- **Alike records.** Terms come to the same if they find alike rows, or none, under every name
they ask for. -/
theorem verdict_congr_rows {terms : List (String × Criterion)}
    (h : ∀ t ∈ terms, Option.Rel Row.Alike (r.fields.get? t.1) (r'.fields.get? t.1)) (mode : Mode) :
    verdict mode r' terms = verdict mode r terms := by
  induction terms with
  | nil => cases mode <;> rfl
  | cons t rest ih =>
    obtain ⟨hHead, hRest⟩ := List.forall_mem_cons.mp h
    rw [verdict_cons, verdict_cons, answer_congr_row hHead, ih hRest]

/-- The names in the warnings of a record are those asked for that it lacks. -/
theorem map_field_warningsOf (r : Record) (terms : List (String × Criterion)) :
    (warningsOf r terms).map Warning.field =
      (terms.map Prod.fst).filter fun name => name ∉ r.fields.keys := by
  rw [warningsOf_eq, Record.lackingWarnings, List.map_map]
  exact List.map_id _

end Query

end FoodScan
