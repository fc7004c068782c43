import FoodScan.Query.Evaluation

/-!
# What evaluating a query computes

`Query.evaluate` goes through the terms of a query with an answer and a list of warnings as its
state. Here the state at the end is given in closed form, so that nothing else has to open the
loop:

* `evaluate_eq` — the answer is the verdict of the terms (all of them, or one of them, among
  those whose field the record has), and the sink is kept and extended by the warnings of the
  terms whose field the record lacks.
* `mem_collect_ids` / `collect_ids_ascending` — the collected identifiers are those of the
  matching records, strictly ascending.
* `collect_warnings` — the warnings are those of each record in turn.

The sorting half rests on `strictlyAscending_dropRepeats`: once equal neighbours are dropped, a
list sorted by `≤` ascends strictly.
-/

namespace FoodScan

-- ---------------------------------------------------------------------------
-- Dropping repeats
-- ---------------------------------------------------------------------------

/-- Dropping repeats loses no value and adds none. -/
@[simp] theorem mem_dropRepeats {α : Type} [DecidableEq α] {a : α} {xs : List α} :
    a ∈ dropRepeats xs ↔ a ∈ xs := by
  induction xs using dropRepeats.induct with
  | case1 => simp [dropRepeats]
  | case2 x => simp [dropRepeats]
  | case3 y rest ih =>
    rw [dropRepeats, if_pos rfl, ih]
    simp
  | case4 x y rest hne ih =>
    rw [dropRepeats, if_neg hne, List.mem_cons, ih]
    exact List.mem_cons.symm

/-- A sorted list ascends strictly once its repeats are dropped. -/
theorem strictlyAscending_dropRepeats {xs : List Int64} (h : xs.Pairwise (· ≤ ·)) :
    (dropRepeats xs).Pairwise (· < ·) := by
  induction xs using dropRepeats.induct with
  | case1 => simp [dropRepeats]
  | case2 x => simp [dropRepeats]
  | case3 y rest ih =>
    rw [dropRepeats, if_pos rfl]
    exact ih (List.pairwise_cons.mp h).2
  | case4 x y rest hne ih =>
    obtain ⟨hHead, hRest⟩ := List.pairwise_cons.mp h
    rw [dropRepeats, if_neg hne]
    refine List.pairwise_cons.mpr ⟨fun z hz => ?_, ih hRest⟩
    have hxy : x < y := Int64.lt_of_le_of_ne (hHead y List.mem_cons_self) hne
    -- everything behind `y` is at least `y`, hence above `x`
    rcases List.mem_cons.mp (mem_dropRepeats.mp hz) with rfl | hz'
    · exact hxy
    · exact Int64.lt_of_lt_of_le hxy ((List.pairwise_cons.mp hRest).1 z hz')

/-- Sorting identifiers leaves them in ascending order. -/
theorem pairwise_le_mergeSort (xs : List Int64) :
    (xs.mergeSort fun a b => decide (a ≤ b)).Pairwise (· ≤ ·) := by
  have hSorted : (xs.mergeSort fun a b => decide (a ≤ b)).Pairwise fun a b =>
      decide (a ≤ b) = true :=
    List.pairwise_mergeSort
      (fun a b c hab hbc => by
        rw [decide_eq_true_eq] at hab hbc ⊢
        exact Int64.le_trans hab hbc)
      (fun a b => by
        rw [Bool.or_eq_true, decide_eq_true_eq, decide_eq_true_eq]
        exact Int64.le_total a b) xs
  exact hSorted.imp fun hab => of_decide_eq_true hab

namespace Query

-- ---------------------------------------------------------------------------
-- One term
-- ---------------------------------------------------------------------------

/-- The answer of a record to a term; a field it lacks gives the answer that changes nothing. -/
def answer (mode : Mode) (r : Record) (t : String × Criterion) : Bool :=
  match r.fields.get? t.1 with
  | none => start mode
  | some row => t.2.meets row

/-- The warning that a term leaves for a record, if the record lacks its field. -/
def warning? (r : Record) (t : String × Criterion) : Option Warning :=
  match r.fields.get? t.1 with
  | none => some ⟨t.1, r.identifier⟩
  | some _ => none

/-- The verdict on no terms is neutral for the operation of its mode. -/
theorem combine_start (mode : Mode) (b : Bool) : combine mode b (start mode) = b := by
  cases mode <;> simp [combine, start]

/-- **One step.** Asking for a term takes its answer into account and appends its warning. -/
theorem ask_eq (mode : Mode) (r : Record) (state : Bool × List Warning)
    (t : String × Criterion) :
    ask mode r state t =
      (combine mode state.1 (answer mode r t), state.2 ++ (warning? r t).toList) := by
  unfold ask answer warning?
  cases hRow : r.fields.get? t.1 with
  | none => simp [combine_start]
  | some row => simp

-- ---------------------------------------------------------------------------
-- All terms
-- ---------------------------------------------------------------------------

/-- What the answers to some terms come to. -/
def verdict : Mode → Record → List (String × Criterion) → Bool
  | .and, r, terms => terms.all (answer .and r)
  | .or, r, terms => terms.any (answer .or r)

/-- The warnings that some terms leave for a record, in term order. -/
def warningsOf (r : Record) (terms : List (String × Criterion)) : List Warning :=
  terms.filterMap (warning? r)

/-- The verdict of some terms is made up of the first answer and the verdict of the rest. -/
theorem verdict_cons (mode : Mode) (r : Record) (t : String × Criterion)
    (rest : List (String × Criterion)) :
    verdict mode r (t :: rest) = combine mode (answer mode r t) (verdict mode r rest) := by
  cases mode <;> simp [verdict, combine]

/-- Both operations are associative, which is what lets a fold be split anywhere. -/
theorem combine_assoc (mode : Mode) (a b c : Bool) :
    combine mode (combine mode a b) c = combine mode a (combine mode b c) := by
  cases mode <;> simp [combine, Bool.and_assoc, Bool.or_assoc]

theorem start_combine (mode : Mode) (b : Bool) : combine mode (start mode) b = b := by
  cases mode <;> simp [combine, start]

/-- **A whole run.** From any state, the terms add their verdict to the answer and their warnings
to the sink. -/
theorem foldl_ask (mode : Mode) (r : Record) (terms : List (String × Criterion))
    (state : Bool × List Warning) :
    terms.foldl (ask mode r) state =
      (combine mode state.1 (verdict mode r terms), state.2 ++ warningsOf r terms) := by
  induction terms generalizing state with
  | nil =>
    have hNil : verdict mode r [] = start mode := by cases mode <;> rfl
    simp [hNil, combine_start, warningsOf]
  | cons t rest ih =>
    rw [List.foldl_cons, ih, ask_eq, verdict_cons, combine_assoc]
    cases hWarn : warning? r t <;> simp [warningsOf, hWarn]

/-- The evaluation of a record in closed form. -/
theorem evaluate_eq (q : Query) (r : Record) (sink : List Warning) :
    q.evaluate r sink = (verdict q.mode r q.terms, sink ++ warningsOf r q.terms) := by
  rw [evaluate, foldl_ask, start_combine]

/-- A record matches when the verdict of the terms on it is true. -/
theorem matchesRecord_eq (q : Query) (r : Record) :
    q.matchesRecord r = verdict q.mode r q.terms := by
  rw [matchesRecord, evaluate_eq]

/-- The answer in `and` mode: every term whose field the record has is met. -/
theorem verdict_and_iff {r : Record} {terms : List (String × Criterion)} :
    verdict .and r terms = true ↔
      ∀ t ∈ terms, ∀ row, r.fields.get? t.1 = some row → t.2.meets row = true := by
  rw [verdict, List.all_eq_true]
  refine forall₂_congr fun t _ => ?_
  unfold answer
  cases hRow : r.fields.get? t.1 <;> simp [start]

/-- The answer in `or` mode: some term whose field the record has is met. -/
theorem verdict_or_iff {r : Record} {terms : List (String × Criterion)} :
    verdict .or r terms = true ↔
      ∃ t ∈ terms, ∃ row, r.fields.get? t.1 = some row ∧ t.2.meets row = true := by
  rw [verdict, List.any_eq_true]
  refine exists_congr fun t => and_congr_right fun _ => ?_
  unfold answer
  cases hRow : r.fields.get? t.1 <;> simp [start]

-- ---------------------------------------------------------------------------
-- Many records
-- ---------------------------------------------------------------------------

/-- The identifiers of the records that match, in record order. -/
def matchingIds (records : List Record) (q : Query) : List Int64 :=
  (records.filter fun r => verdict q.mode r q.terms).map Record.identifier

/-- The identifiers are those of the matching records, sorted and then freed of repeats. -/
theorem collect_ids (records : List Record) (q : Query) :
    (q.collect records).ids =
      dropRepeats ((matchingIds records q).mergeSort fun a b => decide (a ≤ b)) := by
  have hIds : matchingIds records q =
      (records.map fun r => (r.identifier, q.evaluate r [])).filterMap
        fun a => if a.2.1 then some a.1 else none := by
    induction records with
    | nil => rfl
    | cons r rest ih =>
      rw [matchingIds] at ih ⊢
      by_cases hr : verdict q.mode r q.terms = true
      · simp [hr, ih, evaluate_eq]
      · simp [hr, ih, evaluate_eq]
  rw [hIds]
  rfl

/-- Collected identifiers ascend strictly, so none is repeated. -/
theorem collect_ids_ascending (records : List Record) (q : Query) :
    (q.collect records).ids.Pairwise (· < ·) := by
  rw [collect_ids]
  exact strictlyAscending_dropRepeats (pairwise_le_mergeSort _)

/-- An identifier is collected if and only if it is that of a matching record. -/
theorem mem_collect_ids {records : List Record} {q : Query} {i : Int64} :
    i ∈ (q.collect records).ids ↔
      ∃ r ∈ records, r.identifier = i ∧ verdict q.mode r q.terms = true := by
  rw [collect_ids, mem_dropRepeats, List.mem_mergeSort, matchingIds, List.mem_map]
  constructor
  · rintro ⟨r, hr, rfl⟩
    obtain ⟨hMem, hMatch⟩ := List.mem_filter.mp hr
    exact ⟨r, hMem, rfl, hMatch⟩
  · rintro ⟨r, hMem, rfl, hMatch⟩
    exact ⟨r, List.mem_filter.mpr ⟨hMem, hMatch⟩, rfl⟩

/-- The collected warnings are those of the records, one record after the other. -/
theorem collect_warnings (records : List Record) (q : Query) :
    (q.collect records).warnings = records.flatMap fun r => warningsOf r q.terms := by
  show (records.map fun r => (r.identifier, q.evaluate r [])).flatMap (fun a => a.2.2) = _
  rw [List.flatMap_map]
  simp only [evaluate_eq, List.nil_append]

end Query

end FoodScan
