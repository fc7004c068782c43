import FoodScan.Proofs.Query.Satisfaction
import FoodScan.Proofs.Query.Warnings
import FoodScan.Proofs.Traversal

/-!
# Monotonicity

A query that asks for less finds no less, and neither does any query in records that hold more.
`Criterion.Weakening` says in what ways a criterion can ask for less: further alternatives, smaller
groups, alternatives in place of one value. `Row.Extension` says in what ways a row can hold more:
further elements, further members of its groups.

The argument goes layer by layer, from a value in a row to a record: `Row.Extension.contains`,
`Criterion.MetBy.mono`, `answer_mono` for one term, `verdict_mono` for all of them. Since names stay
as they are on both sides, so do the warnings.

Main result: `weaker_queries_and_longer_rows_keep_ids`.
-/

namespace FoodScan

-- ---------------------------------------------------------------------------
-- Weaker queries
-- ---------------------------------------------------------------------------

/-- The second alternative asks for no more: a group may have lost values, though not all. -/
inductive Alternative.Weakening : Alternative → Alternative → Prop
  | one (s : Scalar) : Weakening (.one s) (.one s)
  | all {group group' : AndGroup} (h : group'.scalars.Sublist group.scalars) :
    Weakening (.all group) (.all group')

/-- The second criterion asks for no more: there may be further alternatives anywhere, some of the
alternatives may ask for less, and one value may have become one of several alternatives. -/
inductive Criterion.Weakening : Criterion → Criterion → Prop
  | one (s : Scalar) : Weakening (.one s) (.one s)
  | widen {s : Scalar} {alternatives : List Alternative} (h : .one s ∈ alternatives) :
    Weakening (.one s) (.anyOf alternatives)
  | anyOf {alternatives alternatives' : List Alternative}
    (h : List.SublistForall₂ Alternative.Weakening alternatives alternatives') :
    Weakening (.anyOf alternatives) (.anyOf alternatives')

/-- The second query asks for the same fields in the same mode, and for no more of any of them. -/
structure Query.Weakening (q q' : Query) : Prop where
  mode : q'.mode = q.mode
  terms : List.Forall₂ (fun t t' => t'.1 = t.1 ∧ Criterion.Weakening t.2 t'.2) q.terms q'.terms

instance : Std.Refl Alternative.Weakening where
  refl
    | .one s => .one s
    | .all _ => .all (List.Sublist.refl _)

theorem Criterion.Weakening.refl : ∀ c : Criterion, c.Weakening c
  | .one s => .one s
  | .anyOf alternatives => .anyOf (List.Sublist.refl alternatives).sublistForall₂

theorem Query.Weakening.refl (q : Query) : q.Weakening q :=
  ⟨rfl, List.forall₂_same.mpr fun t _ => ⟨rfl, .refl t.2⟩⟩

/-- A weaker query names the same fields in the same order. -/
theorem Query.Weakening.fieldNames_eq {q q' : Query} (h : q.Weakening q') :
    q'.fieldNames = q.fieldNames :=
  map_fst_forall₂ h.terms

-- ---------------------------------------------------------------------------
-- Longer rows
-- ---------------------------------------------------------------------------

/-- The second element holds no less: a group may have gained values. -/
inductive RowElement.Extension : RowElement → RowElement → Prop
  | scalar (s : Scalar) : Extension (.scalar s) (.scalar s)
  | nested {items items' : List Scalar} (h : items.Sublist items') :
    Extension (.nested items) (.nested items')

/-- The second row holds no less: there may be further elements anywhere, and some of the groups may
hold more. -/
def Row.Extension (row row' : Row) : Prop := List.SublistForall₂ RowElement.Extension row row'

/-- The second record has the same identifier and the same fields, with no less in any of them. -/
structure Record.Extension (r r' : Record) : Prop where
  identifier : r'.identifier = r.identifier
  fields : List.Forall₂ (fun e e' => e'.1 = e.1 ∧ Row.Extension e.2 e'.2)
    r.fields.entries r'.fields.entries

instance : Std.Refl RowElement.Extension where
  refl
    | .scalar s => .scalar s
    | .nested _ => .nested (List.Sublist.refl _)

theorem Row.Extension.refl (row : Row) : row.Extension row :=
  (List.Sublist.refl row).sublistForall₂

theorem Record.Extension.refl (r : Record) : r.Extension r :=
  ⟨rfl, List.forall₂_same.mpr fun e _ => ⟨rfl, .refl e.2⟩⟩

/-- A longer record has the same fields, so it lacks the same. -/
theorem Record.Extension.namesAgree {r r' : Record} (h : r.Extension r') : r.NamesAgree r' :=
  ⟨h.identifier, map_fst_forall₂ h.fields⟩

/-- A longer row keeps what it contains. -/
theorem Row.Extension.contains {row row' : Row} (h : row.Extension row') {s : Scalar}
    (hs : row.Contains s) : row'.Contains s := by
  rcases hs with ⟨t, hMem, hEq⟩ | ⟨items, hMem, t, ht, hEq⟩
  · obtain ⟨element, hElement, hExt⟩ := exists_of_mem_sublistForall₂ h hMem
    cases hExt with
    | scalar => exact Or.inl ⟨t, hElement, hEq⟩
  · obtain ⟨element, hElement, hExt⟩ := exists_of_mem_sublistForall₂ h hMem
    cases hExt with
    | nested hItems => exact Or.inr ⟨_, hElement, t, hItems.subset ht, hEq⟩

-- ---------------------------------------------------------------------------
-- Criteria
-- ---------------------------------------------------------------------------

/-- An alternative that is met stays so when it is weakened and the row grows. -/
theorem Alternative.MetBy.mono {row row' : Row} {a a' : Alternative} (hMet : a.MetBy row)
    (hWeak : a.Weakening a') (hRow : row.Extension row') : a'.MetBy row' := by
  cases hWeak with
  | one s => exact hRow.contains hMet
  | all hSublist => exact fun s hs => hRow.contains (hMet s (hSublist.subset hs))

theorem Criterion.MetBy.mono {row row' : Row} {c c' : Criterion} (hMet : c.MetBy row)
    (hWeak : c.Weakening c') (hRow : row.Extension row') : c'.MetBy row' := by
  cases hWeak with
  | one s => exact hRow.contains hMet
  | widen hMem => exact ⟨_, hMem, hRow.contains hMet⟩
  | anyOf hAlternatives =>
    -- the alternative that was met is still there, perhaps asking for less
    obtain ⟨a, ha, hA⟩ := hMet
    obtain ⟨a', ha', hWeak⟩ := exists_of_mem_sublistForall₂ hAlternatives ha
    exact ⟨a', ha', hA.mono hWeak hRow⟩

/-- A group that is not met decides nothing, wherever it stands. -/
theorem Criterion.meets_anyOf_of_failing {row : Row} {before after : List Alternative}
    {group : AndGroup} (hFails : (Alternative.all group).meets row = false) :
    (Criterion.anyOf (before ++ .all group :: after)).meets row = true ↔
      ∃ a ∈ before ++ after, a.meets row = true := by
  rw [Criterion.meets, List.any_append, List.any_cons, hFails, Bool.false_or, ← List.any_append,
    List.any_eq_true]

namespace Query

-- ---------------------------------------------------------------------------
-- Records
-- ---------------------------------------------------------------------------

variable {mode : Mode} {q q' : Query} {r r' : Record} {records records' : List Record}

/-- **One term.** A yes stays a yes. -/
theorem answer_mono {t t' : String × Criterion} (hName : t'.1 = t.1)
    (hWeak : t.2.Weakening t'.2) (hRecord : r.Extension r') (h : answer mode r t = true) :
    answer mode r' t' = true := by
  have hRows : Option.Rel Row.Extension (r.fields.get? t.1) (r'.fields.get? t.1) :=
    lookup_forall₂ hRecord.fields t.1
  rw [answer] at h ⊢
  rw [hName]
  -- only the two rows matter from here on, not the records they are in
  generalize r.fields.get? t.1 = before at hRows h
  generalize r'.fields.get? t.1 = after at hRows ⊢
  cases hRows with
  | none => exact h
  | some hRow =>
    have hMet := Criterion.meets_iff.mp h
    exact Criterion.meets_iff.mpr (hMet.mono hWeak hRow)

/-- Both operations are monotone, so one argument serves both modes. -/
theorem combine_mono {a a' b b' : Bool} (ha : a = true → a' = true) (hb : b = true → b' = true)
    (h : combine mode a b = true) : combine mode a' b' = true := by
  cases mode with
  | and =>
    rw [combine, Bool.and_eq_true] at h ⊢
    exact ⟨ha h.1, hb h.2⟩
  | or =>
    rw [combine, Bool.or_eq_true] at h ⊢
    exact h.imp ha hb

/-- **All terms.** If no answer turns from yes to no, then neither does what they come to. -/
theorem verdict_mono {terms terms' : List (String × Criterion)}
    (hAnswers : List.Forall₂ (fun t t' => answer mode r t = true → answer mode r' t' = true)
      terms terms')
    (h : verdict mode r terms = true) : verdict mode r' terms' = true := by
  induction hAnswers with
  | nil => cases mode <;> exact h
  | cons hHead _ ih =>
    rw [verdict_cons] at h ⊢
    exact combine_mono hHead ih h

/-- Weaker queries over longer records keep every identifier. -/
theorem collect_ids_mono (hQuery : q.Weakening q')
    (hRecords : List.Forall₂ Record.Extension records records') :
    (q.collect records).ids ⊆ (q'.collect records').ids := by
  intro i hi
  obtain ⟨r, hr, rfl, hVerdict⟩ := mem_collect_ids.mp hi
  obtain ⟨r', hr', hExt⟩ := exists_of_mem_right hRecords.flip hr
  have hAnswers : List.Forall₂ (fun t t' => answer q.mode r t = true → answer q.mode r' t' = true)
      q.terms q'.terms :=
    hQuery.terms.imp fun t t' ht => answer_mono ht.1 ht.2 hExt
  have hVerdict' : verdict q'.mode r' q'.terms = true := by
    rw [hQuery.mode]
    exact verdict_mono hAnswers hVerdict
  exact mem_collect_ids.mpr ⟨r', hr', hExt.identifier, hVerdict'⟩

/-- Warnings depend on names of fields alone, and these are unchanged. -/
theorem collect_warnings_eq_of_weakening (hQuery : q.Weakening q')
    (hRecords : List.Forall₂ Record.Extension records records') :
    (q'.collect records').warnings = (q.collect records).warnings :=
  collect_warnings_congr hQuery.fieldNames_eq (hRecords.imp fun _ _ h => h.namesAgree)

/--
**Monotonicity.**

1. A query that asks for less, in any of its terms and in any of the ways, finds every identifier
   that was found and leaves the same warnings.
2. So does every query in records that hold more in the fields they have.
3. In particular, a group that is not met, wherever it stands among the alternatives, takes nothing
   away from those before it or behind it.
-/
theorem weaker_queries_and_longer_rows_keep_ids :
    (∀ (q q' : Query) (records : List Record), q.Weakening q' →
      (q.collect records).ids ⊆ (q'.collect records).ids ∧
      (q'.collect records).warnings = (q.collect records).warnings) ∧
    (∀ (q : Query) (records records' : List Record),
      List.Forall₂ Record.Extension records records' →
        (q.collect records).ids ⊆ (q.collect records').ids ∧
        (q.collect records').warnings = (q.collect records).warnings) ∧
    ∀ (row : Row) (before after : List Alternative) (group : AndGroup),
      (Alternative.all group).meets row = false →
        ((Criterion.anyOf (before ++ .all group :: after)).meets row = true ↔
          ∃ a ∈ before ++ after, a.meets row = true) := by
  refine ⟨fun q q' records hQuery => ?_, fun q records records' hRecords => ?_,
    fun row before after group => Criterion.meets_anyOf_of_failing⟩
  · -- records extend themselves, so each half is a case of the same statement
    have hSame : List.Forall₂ Record.Extension records records :=
      List.forall₂_same.mpr fun r _ => .refl r
    exact ⟨collect_ids_mono hQuery hSame, collect_warnings_eq_of_weakening hQuery hSame⟩
  · have hSame : q.Weakening q := .refl q
    exact ⟨collect_ids_mono hSame hRecords, collect_warnings_eq_of_weakening hSame hRecords⟩

/-- Further alternatives, a smaller group and alternatives for one value; further elements and a
longer group. -/
theorem weaker_queries_and_longer_rows_keep_ids_in_every_way :
    let eggAndMilk : AndGroup := ⟨[.text "egg", .text "milk"], by decide⟩
    let milk : AndGroup := ⟨[.text "milk"], by decide⟩
    let rice : AndGroup := ⟨[.text "rice"], by decide⟩
    let strict : Query := ⟨.and,
      [("colour", .anyOf []), ("parts", .anyOf [.all eggAndMilk]), ("unit", .one (.text "g"))]⟩
    let lenient : Query := ⟨.and,
      [("colour", .anyOf [.one (.int 1)]), ("parts", .anyOf [.all rice, .all milk]),
        ("unit", .anyOf [.one (.bool true), .one (.text "g")])]⟩
    let parts : Row := [.nested [.text "egg", .text "milk"]]
    let plain : Record :=
      ⟨4, ⟨[("parts", parts), ("unit", [.scalar (.text "g")])], by decide +kernel⟩, none⟩
    let rich : Record :=
      ⟨4, ⟨[("parts", [.scalar (.text "salt"), .nested [.text "egg", .text "oil", .text "milk"]]),
        ("unit", [.scalar (.text "g"), .nested []])], by decide +kernel⟩, none⟩
    strict.Weakening lenient ∧ 4 ∈ (lenient.collect [plain]).ids ∧
      (lenient.collect [plain]).warnings = [⟨"colour", 4⟩] ∧
      List.Forall₂ Record.Extension [plain] [rich] ∧ 4 ∈ (strict.collect [rich]).ids ∧
      (strict.collect [rich]).warnings = [⟨"colour", 4⟩] ∧
      (Alternative.all rice).meets parts = false ∧
      (Criterion.anyOf ([.all milk] ++ .all rice :: [])).meets parts = true := by
  intro eggAndMilk milk rice strict lenient parts plain rich
  -- each term is weakened in another way
  have hWeak : strict.Weakening lenient :=
    ⟨rfl, .cons ⟨rfl, .anyOf .nil⟩ (.cons
      ⟨rfl, .anyOf (.cons_right (.cons (.all (by decide)) .nil))⟩ (.cons
      ⟨rfl, .widen (by decide)⟩ .nil))⟩
  have hLonger : plain.Extension rich :=
    ⟨rfl, .cons ⟨rfl, .cons_right (.cons (.nested (by decide)) .nil)⟩ (.cons
      ⟨rfl, .cons (.scalar _) .nil⟩ .nil)⟩
  have hRecords : List.Forall₂ Record.Extension [plain] [rich] := .cons hLonger .nil
  have hFails : (Alternative.all rice).meets parts = false := by decide +kernel
  have hFound : strict.collect [plain] = ⟨[4], [⟨"colour", 4⟩]⟩ := by decide +kernel
  obtain ⟨hQueries, hRows, hGroup⟩ := weaker_queries_and_longer_rows_keep_ids
  obtain ⟨hIds, hWarnings⟩ := hQueries strict lenient [plain] hWeak
  obtain ⟨hIds', hWarnings'⟩ := hRows strict [plain] [rich] hRecords
  rw [hFound] at hIds hWarnings hIds' hWarnings'
  refine ⟨hWeak, hIds (List.mem_singleton.mpr rfl), hWarnings, hRecords,
    hIds' (List.mem_singleton.mpr rfl), hWarnings', hFails, ?_⟩
  exact (hGroup parts [.all milk] [] rice hFails).mpr ⟨.all milk, by simp, by decide +kernel⟩

end Query

end FoodScan
