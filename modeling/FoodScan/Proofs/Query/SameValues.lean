import FoodScan.Proofs.Query.Alike
import FoodScan.Proofs.Scalar

/-!
# Only the set of values in a row is seen

A query asks whether values are in a row. It learns nothing else of the row: not their groups, their
order or their number, and of a NaN nothing at all, since it equals no value that can be asked for.
`Row.SameValues` says that two rows have the same values, up to the equality of scalars, which is
symmetric and transitive, though a NaN does not equal itself and the two zeros equal each other.

* `Row.sameValues_iff_alike` — just the rows with the same values are alike for every query.
* `Row.Recast.sameValues` — the ways in which a row can be recast without a change of its values.

Main result: `only_values_are_seen`.
-/

namespace FoodScan

-- ---------------------------------------------------------------------------
-- Rows with the same values
-- ---------------------------------------------------------------------------

namespace Row

/-- Every value of the first row but a NaN equals one of the second. -/
def ValuesIn (row row' : Row) : Prop :=
  ∀ s ∈ row.scalars, s.isNaN = false → ∃ t ∈ row'.scalars, s.Equals t

/-- The rows have the same values, NaNs aside, whether by themselves or in groups. -/
def SameValues (row row' : Row) : Prop := row.ValuesIn row' ∧ row'.ValuesIn row

/-- Whether a row holds a scalar is a matter of equal values in it. -/
theorem holds_iff_exists_equals {s : Scalar} {row : Row} :
    Row.holds s row = true ↔ ∃ t ∈ row.scalars, t.Equals s := by
  rw [Row.holds_eq_any, List.any_eq_true]
  exact exists_congr fun t => and_congr_right fun _ => Scalar.same_iff_equals

/-- What is in a row is in every row that has its values. -/
theorem ValuesIn.holds {row row' : Row} (h : row.ValuesIn row') {s : Scalar}
    (hs : Row.holds s row = true) : Row.holds s row' = true := by
  obtain ⟨t, ht, hEq⟩ := holds_iff_exists_equals.mp hs
  obtain ⟨u, hu, hEq'⟩ := h t ht hEq.isNaN_eq_false
  exact holds_iff_exists_equals.mpr ⟨u, hu, hEq'.symm.trans hEq⟩

/-- Of two alike rows each has the values of the other, for every value but a NaN can be asked for.
-/
theorem Alike.valuesIn {row row' : Row} (h : row.Alike row') : row.ValuesIn row' := by
  intro s hs hNum
  have hHolds : Row.holds s row = true :=
    holds_iff_exists_equals.mpr ⟨s, hs, Scalar.equals_self_iff.mpr hNum⟩
  rw [← h s] at hHolds
  obtain ⟨t, ht, hEq⟩ := holds_iff_exists_equals.mp hHolds
  exact ⟨t, ht, hEq.symm⟩

/-- **Rows.** Rows are alike for every query if and only if they have the same values. -/
theorem sameValues_iff_alike {row row' : Row} : row.SameValues row' ↔ row.Alike row' := by
  constructor
  · rintro ⟨hThere, hBack⟩ s
    rw [Bool.eq_iff_iff]
    exact ⟨hBack.holds, hThere.holds⟩
  · intro h
    exact ⟨h.valuesIn, Alike.valuesIn fun s => (h s).symm⟩

theorem SameValues.trans {row row' row'' : Row} (h : row.SameValues row')
    (h' : row'.SameValues row'') : row.SameValues row'' := by
  rw [sameValues_iff_alike] at h h' ⊢
  exact fun s => (h' s).trans (h s)

end Row

-- ---------------------------------------------------------------------------
-- Ways to recast a row
-- ---------------------------------------------------------------------------

/-- One scalar in place of another: itself, or a zero for a zero of either sign. -/
inductive Scalar.UpToZero : Scalar → Scalar → Prop
  | refl (s : Scalar) : UpToZero s s
  | zero {x y : Binary64} (hx : x.isZero = true) (hy : y.isZero = true) :
    UpToZero (.float x) (.float y)

theorem Scalar.UpToZero.symm {s t : Scalar} (h : s.UpToZero t) : t.UpToZero s := by
  cases h with
  | refl s => exact .refl s
  | zero hx hy => exact .zero hy hx

/-- Scalars that differ at most in the sign of zero are equal, unless they are no number. -/
theorem Scalar.UpToZero.equals {s t : Scalar} (h : s.UpToZero t) (hNum : s.isNaN = false) :
    s.Equals t := by
  cases h with
  | refl s => exact Scalar.equals_self_iff.mpr hNum
  | @zero x y hx hy =>
    have hFin : ∀ {z : Binary64}, z.isZero = true → z.isNaN = false := fun hz =>
      Binary64.isNaN_eq_false_of_isFinite (Binary64.isFinite_of_isZero hz)
    refine .float (Binary64.same_iff_equals.mp ?_)
    simp [Binary64.same, hFin hx, hFin hy, hx, hy]

namespace Row

/-- What can become of a row while it keeps its values. -/
inductive Recast : Row → Row → Prop
  /-- The values are put in other groups or in none, in another order, more or less often. Empty
  groups come and go, and so do NaNs. -/
  | regroup {row row' : Row} (h : ∀ s, s.isNaN = false → (s ∈ row'.scalars ↔ s ∈ row.scalars)) :
    Recast row row'
  /-- Zeros change their sign. -/
  | zeros {row row' : Row} (h : List.Forall₂ Scalar.UpToZero row.scalars row'.scalars) :
    Recast row row'
  | trans {row row' row'' : Row} (h : Recast row row') (h' : Recast row' row'') : Recast row row''

/-- Rows that differ only in signs of zero hold the same values. -/
theorem valuesIn_of_upToZero {row row' : Row}
    (h : List.Forall₂ Scalar.UpToZero row.scalars row'.scalars) : row.ValuesIn row' := by
  intro s hs hNum
  obtain ⟨t, ht, hZero⟩ := exists_of_mem_right h.flip hs
  exact ⟨t, ht, hZero.equals hNum⟩

/-- **Recasting.** A row keeps its values however it is recast. -/
theorem Recast.sameValues {row row' : Row} (h : row.Recast row') : row.SameValues row' := by
  induction h with
  | regroup h =>
    constructor
    · exact fun s hs hNum => ⟨s, (h s hNum).mpr hs, Scalar.equals_self_iff.mpr hNum⟩
    · exact fun s hs hNum => ⟨s, (h s hNum).mp hs, Scalar.equals_self_iff.mpr hNum⟩
  | zeros h =>
    exact ⟨valuesIn_of_upToZero h, valuesIn_of_upToZero (h.flip.imp fun _ _ => .symm)⟩
  | trans _ _ ih ih' => exact ih.trans ih'

end Row

-- ---------------------------------------------------------------------------
-- Records
-- ---------------------------------------------------------------------------

/-- The records have the same identifier and, under each of the names, related rows or none. -/
structure Record.AgreeOn (R : Row → Row → Prop) (names : List String) (r r' : Record) : Prop where
  identifier : r'.identifier = r.identifier
  rows : ∀ name ∈ names, Option.Rel R (r.fields.get? name) (r'.fields.get? name)

/-- Records that agree on rows in one sense agree in every wider one. -/
theorem Record.AgreeOn.mono {R R' : Row → Row → Prop} (hR : ∀ {row row'}, R row row' → R' row row')
    {names : List String} {r r' : Record} (h : r.AgreeOn R names r') : r.AgreeOn R' names r' where
  identifier := h.identifier
  rows name hName := by
    have hRows := h.rows name hName
    generalize r.fields.get? name = before at hRows ⊢
    generalize r'.fields.get? name = after at hRows ⊢
    cases hRows with
    | none => exact .none
    | some hRow => exact .some (hR hRow)

namespace Query

variable {r r' : Record} {terms : List (String × Criterion)}

/-- Records that lack the same names leave the same warnings. -/
theorem warningsOf_congr {R : Row → Row → Prop} (h : r.AgreeOn R (terms.map Prod.fst) r') :
    warningsOf r' terms = warningsOf r terms := by
  refine List.filterMap_congr fun t ht => ?_
  have hRows := h.rows t.1 (List.mem_map_of_mem ht)
  rw [warning?, warning?, h.identifier]
  generalize r.fields.get? t.1 = before at hRows ⊢
  generalize r'.fields.get? t.1 = after at hRows ⊢
  cases hRows <;> rfl

/-- Records with alike rows under the names asked for are evaluated alike. -/
theorem evaluate_congr {q : Query} (h : r.AgreeOn Row.Alike q.fieldNames r')
    (sink : List Warning) : q.evaluate r' sink = q.evaluate r sink := by
  have hRows : ∀ t ∈ q.terms,
      Option.Rel Row.Alike (r.fields.get? t.1) (r'.fields.get? t.1) :=
    fun t ht => h.rows t.1 (List.mem_map_of_mem ht)
  rw [evaluate_eq, evaluate_eq, verdict_congr_rows hRows, warningsOf_congr h]

/--
**Only values are seen.** For every query, of either mode:

1. Two records with the same identifier whose rows, under the names that the query asks for, have
   the same values or are missing in both, get the same answer and add the same warnings, whatever
   the warnings before.
2. So do records whose rows under those names are recast in groups, order or number of their values,
   in empty groups, in NaNs or in the signs of zeros. Under all other names the records may have
   anything.
3. A row meets a group of values if each is in some element of it, in the same one or in another.
-/
theorem only_values_are_seen (q : Query) :
    (∀ r r' : Record, r.AgreeOn Row.SameValues q.fieldNames r' →
      ∃ answer warnings, ∀ sink, q.evaluate r sink = (answer, sink ++ warnings) ∧
        q.evaluate r' sink = (answer, sink ++ warnings)) ∧
    (∀ r r' : Record, r.AgreeOn Row.Recast q.fieldNames r' →
      ∀ sink, q.evaluate r' sink = q.evaluate r sink) ∧
    ∀ (row : Row) (group : AndGroup), (Alternative.all group).meets row = true ↔
      ∀ s ∈ group.scalars, ∃ element ∈ row, element.holds s = true := by
  refine ⟨fun r r' h => ?_, fun r r' h sink => ?_, fun row group => ?_⟩
  · refine ⟨verdict q.mode r q.terms, warningsOf r q.terms, fun sink => ?_⟩
    have hSame := evaluate_congr (h.mono Row.sameValues_iff_alike.mp) sink
    exact ⟨evaluate_eq q r sink, hSame.trans (evaluate_eq q r sink)⟩
  · exact evaluate_congr (h.mono fun hRow => Row.sameValues_iff_alike.mp hRow.sameValues) sink
  · simp only [Alternative.meets, Row.holds, List.all_eq_true, List.any_eq_true]

/-- A group finds its members in different elements; the other record has lost a NaN and gained a
field that nobody asks for, and one of its zeros is negative. -/
theorem only_values_are_seen_despite_negative_zero :
    let nan : Binary64 := ⟨0x7ff8000000000000⟩
    let milk : Scalar := .text "milk"
    let whole : Row := [.scalar milk, .nested [.float nan, .float .zero]]
    let loose : Row := [.nested [], .nested [milk, milk], .scalar (.float .zero)]
    let signed : Row := [.nested [], .nested [milk, milk], .scalar (.float Binary64.zero.neg)]
    let r : Record := ⟨7, KeyMap.ofList [("parts", whole)], none⟩
    let r' : Record := ⟨7, KeyMap.ofList [("note", []), ("parts", signed)], some "a.toml"⟩
    let both : AndGroup := ⟨[.float .zero, milk], by decide⟩
    let q : Query := ⟨.and, [("parts", .anyOf [.one (.float nan), .all both]), ("unit", .one milk)]⟩
    whole.Recast loose ∧ loose.Recast signed ∧ r.AgreeOn Row.SameValues q.fieldNames r' ∧
      q.evaluate r [] = (true, [⟨"unit", 7⟩]) ∧ q.evaluate r' [] = (true, [⟨"unit", 7⟩]) ∧
      (Alternative.all both).meets signed = true := by
  intro nan milk whole loose signed r r' both q
  have hRegroup : whole.Recast loose := by
    refine .regroup fun s hs => ?_
    -- the NaN is dropped by the recasting, and nothing can ask for it
    have hne : s ≠ .float nan := by
      rintro rfl
      exact absurd hs (by decide)
    simp [whole, loose, Row.scalars, RowElement.scalars, hne]
  have hZeros : loose.Recast signed :=
    .zeros (.cons (.refl _) (.cons (.refl _) (.cons (.zero (by decide) (by decide)) .nil)))
  have hParts : r.fields.get? "parts" = some whole ∧ r'.fields.get? "parts" = some signed := by
    decide +kernel
  have hUnit : r.fields.get? "unit" = none ∧ r'.fields.get? "unit" = none := by decide +kernel
  have hRecast : r.AgreeOn Row.Recast q.fieldNames r' := by
    refine ⟨rfl, List.forall_mem_cons.mpr ⟨?_, List.forall_mem_singleton.mpr ?_⟩⟩
    · show Option.Rel _ (r.fields.get? "parts") (r'.fields.get? "parts")
      rw [hParts.1, hParts.2]
      exact .some (hRegroup.trans hZeros)
    · show Option.Rel _ (r.fields.get? "unit") (r'.fields.get? "unit")
      rw [hUnit.1, hUnit.2]
      exact .none
  have hSame : r.AgreeOn Row.SameValues q.fieldNames r' := hRecast.mono Row.Recast.sameValues
  have hFound : q.evaluate r [] = (true, [⟨"unit", 7⟩]) := by decide +kernel
  obtain ⟨hValues, hRecasts, hGroup⟩ := only_values_are_seen q
  obtain ⟨answer, warnings, hBoth⟩ := hValues r r' hSame
  refine ⟨hRegroup, hZeros, hSame, hFound, ?_, ?_⟩
  · rw [(hBoth []).2, ← (hBoth []).1, hFound]
  · exact (hGroup signed both).mpr (by decide +kernel)

end Query

end FoodScan
