import Mathlib
import FoodScan.Proofs.Query.Evaluation

/-!
# Splitting and reordering

Records may be evaluated in any order and in any division, and terms may be asked for in any order
and more than once. What a collection says about identifiers stays the same, since it sorts them and
drops repeats; what it says about warnings keeps the order of the records.

* `isMergeOf_collect` — the outcome for some chunks of records in a row merges the outcomes for the
  chunks, and outcomes merge in one way only (`Outcome.IsMergeOf.eq`).
* `collect_ids_perm` / `collect_ids_congr_terms` — the order of the records does not matter for the
  identifiers, nor do order and repeats of the terms.
* `collect_ids_filter` — the records whose identifiers were found are found again by themselves.
  They may include some that do not match, whose identifier another record has brought in.

Main result: `collect_splits_and_reorders`.
-/

namespace FoodScan

/-- The outcome puts some others together: their identifiers, each of them once and ascending, and
their warnings one list after the other. -/
structure Outcome.IsMergeOf (o : Outcome) (parts : List Outcome) : Prop where
  ascending : o.ids.Pairwise (· < ·)
  mem_ids : ∀ i, i ∈ o.ids ↔ ∃ part ∈ parts, i ∈ part.ids
  warnings : o.warnings = parts.flatMap Outcome.warnings

/-- Outcomes are put together in one way only. -/
theorem Outcome.IsMergeOf.eq {o o' : Outcome} {parts : List Outcome} (h : o.IsMergeOf parts)
    (h' : o'.IsMergeOf parts) : o = o' := by
  have hIds : o.ids = o'.ids :=
    h.ascending.eq_of_mem_iff h'.ascending fun i => (h.mem_ids i).trans (h'.mem_ids i).symm
  have hWarnings : o.warnings = o'.warnings := h.warnings.trans h'.warnings.symm
  exact congrArg₂ Outcome.mk hIds hWarnings

namespace Query

variable {q : Query} {records records' : List Record}

/-- Ascending identifiers are known by which of them there are. -/
theorem collect_ids_eq_of_mem_iff {q' : Query}
    (h : ∀ i, i ∈ (q.collect records).ids ↔ i ∈ (q'.collect records').ids) :
    (q.collect records).ids = (q'.collect records').ids :=
  (collect_ids_ascending records q).eq_of_mem_iff (collect_ids_ascending records' q') h

-- ---------------------------------------------------------------------------
-- Records
-- ---------------------------------------------------------------------------

/-- Chunks in a row have the outcome that merges theirs. -/
theorem isMergeOf_collect (q : Query) (chunks : List (List Record)) :
    (q.collect chunks.flatten).IsMergeOf (chunks.map fun chunk => q.collect chunk) where
  ascending := collect_ids_ascending _ q
  mem_ids i := by
    constructor
    · intro hi
      obtain ⟨r, hr, hId, hVerdict⟩ := mem_collect_ids.mp hi
      obtain ⟨chunk, hChunk, hMem⟩ := List.mem_flatten.mp hr
      have hFound : i ∈ (q.collect chunk).ids := mem_collect_ids.mpr ⟨r, hMem, hId, hVerdict⟩
      exact ⟨q.collect chunk, List.mem_map_of_mem hChunk, hFound⟩
    · rintro ⟨part, hPart, hi⟩
      obtain ⟨chunk, hChunk, rfl⟩ := List.mem_map.mp hPart
      obtain ⟨r, hMem, hId, hVerdict⟩ := mem_collect_ids.mp hi
      have hr : r ∈ chunks.flatten := List.mem_flatten.mpr ⟨chunk, hChunk, hMem⟩
      exact mem_collect_ids.mpr ⟨r, hr, hId, hVerdict⟩
  warnings := by
    -- warnings are concatenated chunk by chunk, so the induction is on the chunks
    rw [collect_warnings]
    induction chunks with
    | nil => rfl
    | cons chunk rest ih =>
      rw [List.flatten_cons, List.flatMap_append, ih, List.map_cons, List.flatMap_cons,
        collect_warnings]

/-- The warnings are those that each record leaves by itself, in record order. -/
theorem collect_warnings_eq_blocks (q : Query) (records : List Record) :
    (q.collect records).warnings = records.flatMap fun r => (q.collect [r]).warnings := by
  simp only [collect_warnings, List.flatMap_singleton]

/-- The order of the records does not show in the identifiers. -/
theorem collect_ids_perm (q : Query) (h : records'.Perm records) :
    (q.collect records').ids = (q.collect records).ids :=
  collect_ids_eq_of_mem_iff fun i => by simp only [mem_collect_ids, h.mem_iff]

/-- The records whose identifiers were found are enough to find them. -/
theorem collect_ids_filter (q : Query) (records : List Record) :
    (q.collect (records.filter fun r => r.identifier ∈ (q.collect records).ids)).ids =
      (q.collect records).ids := by
  refine collect_ids_eq_of_mem_iff fun i => ⟨fun hi => ?_, fun hi => ?_⟩
  · obtain ⟨r, hKept, hId, hVerdict⟩ := mem_collect_ids.mp hi
    have hr : r ∈ records := (List.mem_filter.mp hKept).1
    exact mem_collect_ids.mpr ⟨r, hr, hId, hVerdict⟩
  · -- the record that brought the identifier in is itself among those kept
    obtain ⟨r, hr, rfl, hVerdict⟩ := mem_collect_ids.mp hi
    have hKept : r ∈ records.filter fun r => r.identifier ∈ (q.collect records).ids :=
      List.mem_filter.mpr ⟨hr, decide_eq_true hi⟩
    exact mem_collect_ids.mpr ⟨r, hKept, rfl, hVerdict⟩

-- ---------------------------------------------------------------------------
-- Terms
-- ---------------------------------------------------------------------------

/-- What the answers come to depends on which terms there are, not on their order or number. -/
theorem verdict_congr {mode : Mode} {r : Record} {terms terms' : List (String × Criterion)}
    (h : ∀ t, t ∈ terms' ↔ t ∈ terms) : verdict mode r terms' = verdict mode r terms := by
  rw [Bool.eq_iff_iff]
  cases mode with
  | and => simp only [verdict_and_iff, h]
  | or => simp only [verdict_or_iff, h]

/-- Nor does the order of the terms, or how often each is repeated. -/
theorem collect_ids_congr_terms {mode : Mode} {terms terms' : List (String × Criterion)}
    (h : ∀ t, t ∈ terms' ↔ t ∈ terms) (records : List Record) :
    (Query.collect records ⟨mode, terms'⟩).ids = (Query.collect records ⟨mode, terms⟩).ids :=
  collect_ids_eq_of_mem_iff fun i => by simp only [mem_collect_ids, verdict_congr h]

/--
**Splitting and reordering.** For every query:

1. The records of two lists one after the other have the identifiers of both, ascending and each
   once, and the warnings of the first before those of the second.
2. However records are divided into chunks in a row, the outcomes of the chunks merge to the outcome
   of the whole, and to no other.
3. In another order, the records have the same identifiers, and the warnings that each of them
   leaves by itself, in that order.
4. The same terms in any order and with any repeats find the same identifiers.
5. So do the records whose identifiers were found, by themselves.
-/
theorem collect_splits_and_reorders (q : Query) :
    (∀ first second : List Record,
      (q.collect (first ++ second)).ids.Pairwise (· < ·) ∧
      (∀ i, i ∈ (q.collect (first ++ second)).ids ↔
        i ∈ (q.collect first).ids ∨ i ∈ (q.collect second).ids) ∧
      (q.collect (first ++ second)).warnings =
        (q.collect first).warnings ++ (q.collect second).warnings) ∧
    (∀ (chunks : List (List Record)) (o : Outcome),
      o.IsMergeOf (chunks.map fun chunk => q.collect chunk) ↔ o = q.collect chunks.flatten) ∧
    (∀ records records' : List Record, records'.Perm records →
      (q.collect records').ids = (q.collect records).ids ∧
      (q.collect records').warnings = records'.flatMap fun r => (q.collect [r]).warnings) ∧
    (∀ terms' : List (String × Criterion), (∀ t, t ∈ terms' ↔ t ∈ q.terms) →
      ∀ records, (Query.collect records ⟨q.mode, terms'⟩).ids = (q.collect records).ids) ∧
    ∀ records : List Record,
      (q.collect (records.filter fun r => r.identifier ∈ (q.collect records).ids)).ids =
        (q.collect records).ids := by
  refine ⟨fun first second => ?_, fun chunks o => ⟨fun h => ?_, fun h => ?_⟩,
    fun records records' hPerm => ⟨collect_ids_perm q hPerm, collect_warnings_eq_blocks q _⟩,
    fun terms' hTerms records => collect_ids_congr_terms hTerms records, collect_ids_filter q⟩
  · -- two parts are a merge of two chunks
    have hMerge := isMergeOf_collect q [first, second]
    rw [List.flatten_cons, List.flatten_singleton] at hMerge
    refine ⟨hMerge.ascending, fun i => ?_, ?_⟩
    · simp [hMerge.mem_ids]
    · simp [hMerge.warnings]
  · exact h.eq (isMergeOf_collect q chunks)
  · exact h ▸ isMergeOf_collect q chunks

/-- A record that does not match shares its identifier with one that does, in another chunk. -/
theorem collect_splits_and_reorders_shared_identifier :
    let fresh : Record := (Record.new 7).withField "age" [.scalar (.int 1)]
    let stale : Record := (Record.new 7).withField "age" [.scalar (.int 9)]
    let young : Record := (Record.new (-2)).withField "age" [.nested [.int 3, .int 1]]
    let age : String × Criterion := ("age", .one (.int 1))
    let colour : String × Criterion := ("colour", .anyOf [])
    let q : Query := ⟨.and, [age, colour]⟩
    [young, stale, fresh].Perm [stale, young, fresh] ∧
      (∀ t, t ∈ [colour, age, colour] ↔ t ∈ q.terms) ∧
      q.collect [stale, young, fresh] = ⟨[-2, 7], [⟨"colour", 7⟩, ⟨"colour", -2⟩, ⟨"colour", 7⟩]⟩ ∧
      (q.collect [young, stale, fresh]).ids = [-2, 7] ∧
      (q.collect [young, stale, fresh]).warnings =
        [⟨"colour", -2⟩, ⟨"colour", 7⟩, ⟨"colour", 7⟩] ∧
      (Query.collect [stale, young, fresh] ⟨.and, [colour, age, colour]⟩).ids = [-2, 7] := by
  intro fresh stale young age colour q
  have hPerm : [young, stale, fresh].Perm [stale, young, fresh] := .swap stale young [fresh]
  have hTerms : ∀ t, t ∈ [colour, age, colour] ↔ t ∈ q.terms := by
    intro t
    simp only [q, List.mem_cons, List.not_mem_nil]
    tauto
  obtain ⟨-, hChunks, hReorder, hRepeat, -⟩ := collect_splits_and_reorders q
  -- one chunk for each record
  have hStale : q.collect [stale] = ⟨[], [⟨"colour", 7⟩]⟩ := by decide +kernel
  have hYoung : q.collect [young] = ⟨[-2], [⟨"colour", -2⟩]⟩ := by decide +kernel
  have hFresh : q.collect [fresh] = ⟨[7], [⟨"colour", 7⟩]⟩ := by decide +kernel
  have hMerge : Outcome.IsMergeOf ⟨[-2, 7], [⟨"colour", 7⟩, ⟨"colour", -2⟩, ⟨"colour", 7⟩]⟩
      ([[stale], [young], [fresh]].map fun chunk => q.collect chunk) := by
    rw [List.map_cons, List.map_cons, List.map_singleton, hStale, hYoung, hFresh]
    exact ⟨by decide, fun i => by simp, rfl⟩
  have hWhole : q.collect [stale, young, fresh] =
      ⟨[-2, 7], [⟨"colour", 7⟩, ⟨"colour", -2⟩, ⟨"colour", 7⟩]⟩ :=
    ((hChunks _ _).mp hMerge).symm
  obtain ⟨hIds, hBlocks⟩ := hReorder _ _ hPerm
  refine ⟨hPerm, hTerms, hWhole, ?_, ?_, ?_⟩
  · rw [hIds, hWhole]
  · rw [hBlocks]
    decide +kernel
  · rw [hRepeat _ hTerms, hWhole]

end Query

end FoodScan
