import FoodScan.Proofs.Query.Merging
import FoodScan.Proofs.Query.Reading
import FoodScan.Proofs.Query.Warnings
import FoodScan.Proofs.Text.ByteOrder

/-!
# Queries written as JSON

A query that was put together term by term can be written as a JSON object. Nothing in it is
ambiguous: one value is written as a scalar, alternatives as a list, a group as a list in that list,
and a scalar is read back as itself, whatever it looks like, unless JSON cannot write it. Only the
order of the terms is lost, since an object keeps its members by name. Answers do not depend on it,
and warnings only in their order.

* `Criterion.reads_toJson` — a criterion is read back from what it is written as.
* `Query.ofJson_toJson` — a query that asks for no field twice is read back with its terms sorted.

Main result: `written_query_reads_sorted`.
-/

namespace FoodScan

-- ---------------------------------------------------------------------------
-- Criteria
-- ---------------------------------------------------------------------------

def Alternative.scalars : Alternative → List Scalar
  | .one s => [s]
  | .all group => group.scalars

def Criterion.scalars : Criterion → List Scalar
  | .one s => [s]
  | .anyOf alternatives => alternatives.flatMap Alternative.scalars

/-- A finite scalar is read back from its JSON; any other is written as `null`. -/
theorem Scalar.ofJson?_toJson_of_finite {s : Scalar} (h : s.isNonFinite = false) :
    Scalar.ofJson? s.toJson = some s := by
  rw [Scalar.ofJson?_toJson, h]
  rfl

/-- Alternatives of finite scalars are read back from what they are written as. -/
theorem Alternative.reads_toJson {a : Alternative} (h : ∀ s ∈ a.scalars, s.isNonFinite = false) :
    Alternative.Reads a.toJson a := by
  cases a with
  | one s => exact .one (Scalar.ofJson?_toJson_of_finite (h s (List.mem_singleton.mpr rfl)))
  | all group => exact .all (scalarsRead_toJson h)

/-- **Criteria.** A criterion whose values JSON can write is read back as what it was. -/
theorem Criterion.reads_toJson {c : Criterion} (h : ∀ s ∈ c.scalars, s.isNonFinite = false) :
    Criterion.Reads c.toJson c := by
  cases c with
  | one s => exact .one (Scalar.ofJson?_toJson_of_finite (h s (List.mem_singleton.mpr rfl)))
  | anyOf alternatives =>
    refine .anyOf ?_
    rw [List.forall₂_map_left_iff, List.forall₂_same]
    intro a ha
    exact Alternative.reads_toJson fun s hs => h s (List.mem_flatMap.mpr ⟨a, ha, hs⟩)

namespace Query

-- ---------------------------------------------------------------------------
-- Queries
-- ---------------------------------------------------------------------------

/-- The query with its terms in the order of their fields. -/
def sorted (q : Query) : Query := ⟨q.mode, Entries.ofList q.terms⟩

variable {q : Query}

/-- A query is written as an object with its terms in the byte order of their fields. -/
theorem toJson_eq (q : Query) :
    q.toJson = .object (q.sorted.terms.map fun t => (t.1, t.2.toJson)) := by
  rw [toJson, Entries.ofList_map]
  rfl

/-- Sorting by distinct names loses no term. -/
theorem sorted_terms_perm (h : q.fieldNames.Nodup) : q.sorted.terms.Perm q.terms :=
  Entries.ofList_perm h

/-- **Reading back.** What a query is written as is read as the query with its terms sorted. -/
theorem ofJson_toJson (hFinite : ∀ t ∈ q.terms, ∀ s ∈ t.2.scalars, s.isNonFinite = false) :
    Query.ofJson q.mode q.toJson = .ok q.sorted := by
  rw [toJson_eq, ofJson_eq_ok_iff]
  refine ⟨rfl, ?_⟩
  rw [List.forall₂_map_left_iff, List.forall₂_same]
  intro t ht
  exact ⟨rfl, Criterion.reads_toJson (hFinite t (Entries.mem_of_mem_ofList ht))⟩

/-- Reordering the terms reorders the warnings of a record. -/
theorem warningsOf_perm {r : Record} {terms terms' : List (String × Criterion)}
    (h : terms'.Perm terms) : (warningsOf r terms').Perm (warningsOf r terms) :=
  h.filterMap _

/--
**A query survives writing.** Let a query ask for no field twice and for no infinity or NaN. It is
written as an object with one member for each of its terms, and reading that gives a query of the
same mode, and

1. with the same terms, criterion by criterion, in the order of the UTF-8 bytes of the field names,
2. that leaves the same warnings for every record, though in another order,
3. and collects the same identifiers from every list of records, and the warnings of each record in
   turn.
-/
theorem written_query_reads_sorted (q : Query) (hNames : q.fieldNames.Nodup)
    (hFinite : ∀ t ∈ q.terms, ∀ s ∈ t.2.scalars, s.isNonFinite = false) :
    (∃ members : List (String × Json), q.toJson = .object members ∧
      members.Perm (q.terms.map fun t => (t.1, t.2.toJson))) ∧
    ∃ read : Query, Query.ofJson q.mode q.toJson = .ok read ∧ read.mode = q.mode ∧
      read.terms.Perm q.terms ∧
      (read.terms.Pairwise fun t u =>
        List.Lex (· < ·) (Text.utf8Bytes t.1) (Text.utf8Bytes u.1)) ∧
      (∀ r, (read.evaluate r []).2.Perm (q.evaluate r []).2) ∧
      ∀ records, (read.collect records).ids = (q.collect records).ids ∧
        (read.collect records).warnings = (records.flatMap fun r => (read.evaluate r []).2) ∧
        (q.collect records).warnings = records.flatMap fun r => (q.evaluate r []).2 := by
  have hPerm : q.sorted.terms.Perm q.terms := sorted_terms_perm hNames
  -- a collection warns record by record, as evaluating each of them does
  have hBlocks : ∀ (q : Query) (records : List Record),
      (q.collect records).warnings = records.flatMap fun r => (q.evaluate r []).2 := by
    intro q records
    simp only [collect_warnings, evaluate_eq, List.nil_append]
  refine ⟨⟨_, toJson_eq q, hPerm.map _⟩, q.sorted, ofJson_toJson hFinite, rfl, hPerm, ?_, ?_, ?_⟩
  · exact (Entries.ascending_ofList q.terms).imp Text.lt_iff_utf8Bytes_lt.mp
  · intro r
    rw [evaluate_eq, evaluate_eq, List.nil_append, List.nil_append]
    exact warningsOf_perm hPerm
  · intro records
    refine ⟨?_, hBlocks q.sorted records, hBlocks q records⟩
    exact collect_ids_congr_terms (fun t => hPerm.mem_iff) records

/-- Integers at the ends of their range, a float that looks like an integer, a text that looks like
a number, a group, and alternatives of which there are none. -/
theorem written_query_reads_sorted_of_every_kind :
    let pair : AndGroup := ⟨[.text "1", .bool true], by decide⟩
    let least : String × Criterion := ("weight", .one (.int Int64.minValue))
    let parts : String × Criterion :=
      ("parts", .anyOf [.all pair, .one (.float (.ofInt 1)), .one (.int Int64.maxValue)])
    let never : String × Criterion := ("été", .anyOf [])
    let q : Query := ⟨.or, [never, least, parts]⟩
    let read : Query := ⟨.or, [parts, least, never]⟩
    let r : Record := (Record.new 5).withField "parts" [.nested [.bool true], .scalar (.text "1")]
    q.fieldNames.Nodup ∧ (∀ t ∈ q.terms, ∀ s ∈ t.2.scalars, s.isNonFinite = false) ∧
      Query.ofJson q.mode q.toJson = .ok read ∧ read.terms.Perm q.terms ∧
      (read.collect [r]).ids = (q.collect [r]).ids ∧ (q.collect [r]).ids = [5] ∧
      (read.evaluate r []).2.Perm [⟨"été", 5⟩, ⟨"weight", 5⟩] := by
  intro pair least parts never q read r
  have hNames : q.fieldNames.Nodup := by decide
  have hFinite : ∀ t ∈ q.terms, ∀ s ∈ t.2.scalars, s.isNonFinite = false := by decide +kernel
  obtain ⟨-, read', hRead', -, hPerm, -, hWarnings, hCollect⟩ :=
    written_query_reads_sorted q hNames hFinite
  have hRead : Query.ofJson q.mode q.toJson = .ok read := by decide +kernel
  obtain rfl : read' = read := Except.ok.inj (hRead'.symm.trans hRead)
  refine ⟨hNames, hFinite, hRead, hPerm, (hCollect [r]).1, by decide +kernel, ?_⟩
  exact hWarnings r

end Query

end FoodScan
