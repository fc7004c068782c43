import FoodScan.Proofs.KeyMap
import FoodScan.Proofs.Query.Evaluation

/-!
# Warnings about fields a record lacks

An answer is often settled long before the last term, but every term is visited all the same, so
that the warnings of a record can be told from names alone: those that are asked for and those that
the record has.

* `warningsOf_eq` — the terms leave a warning for each name asked for that the record lacks.
* `collect_warnings_congr` — queries for the same names leave the same warnings for records with
  the same names, whatever the mode, the criteria and the rows.

Main result: `warnings_exactly_for_lacking_fields` — the warnings of a collection and of a single
evaluation, whose answer and whose sink do not touch each other.
-/

namespace FoodScan

/-- The names that a query asks for, in the order of its terms, repeats included. -/
def Query.fieldNames (q : Query) : List String := q.terms.map Prod.fst

/-- One warning for each time that a name is asked for and the record lacks it. -/
def Record.lackingWarnings (r : Record) (names : List String) : List Warning :=
  (names.filter fun name => name ∉ r.fields.keys).map fun name => ⟨name, r.identifier⟩

/-- The records agree on their identifier and on the names of their fields. -/
def Record.NamesAgree (r r' : Record) : Prop :=
  r'.identifier = r.identifier ∧ r'.fields.keys = r.fields.keys

theorem Record.NamesAgree.lackingWarnings_eq {r r' : Record} (h : r.NamesAgree r')
    (names : List String) : r'.lackingWarnings names = r.lackingWarnings names := by
  obtain ⟨hId, hKeys⟩ := h
  rw [Record.lackingWarnings, Record.lackingWarnings, hId, hKeys]

namespace Query

-- ---------------------------------------------------------------------------
-- One record
-- ---------------------------------------------------------------------------

theorem warning?_of_mem {r : Record} {t : String × Criterion} (h : t.1 ∈ r.fields.keys) :
    warning? r t = none := by
  unfold warning?
  cases hRow : r.fields.get? t.1 with
  | none => exact absurd h (KeyMap.get?_eq_none_iff.mp hRow)
  | some row => rfl

/-- A field the record lacks is warned of under its identifier. -/
theorem warning?_of_not_mem {r : Record} {t : String × Criterion} (h : t.1 ∉ r.fields.keys) :
    warning? r t = some ⟨t.1, r.identifier⟩ := by
  rw [warning?, KeyMap.get?_eq_none_iff.mpr h]

/-- The warnings of the terms are those about their names. -/
theorem warningsOf_eq (r : Record) (terms : List (String × Criterion)) :
    warningsOf r terms = r.lackingWarnings (terms.map Prod.fst) := by
  induction terms with
  | nil => rfl
  | cons t rest ih =>
    rw [warningsOf, List.map_cons, Record.lackingWarnings]
    by_cases hKey : t.1 ∈ r.fields.keys
    · -- the term is silent, and its name is filtered out
      have hSilent : warning? r t = none := warning?_of_mem hKey
      rw [List.filterMap_cons_none hSilent, List.filter_cons_of_neg (by simpa using hKey)]
      exact ih
    · have hWarns : warning? r t = some ⟨t.1, r.identifier⟩ := warning?_of_not_mem hKey
      rw [List.filterMap_cons_some hWarns, List.filter_cons_of_pos (by simpa using hKey),
        List.map_cons]
      exact congrArg _ ih

-- ---------------------------------------------------------------------------
-- Many records
-- ---------------------------------------------------------------------------

/-- The warnings are record by record what each lacks, in the order of the query. -/
theorem collect_warnings_eq_lacking (records : List Record) (q : Query) :
    (q.collect records).warnings = records.flatMap fun r => r.lackingWarnings q.fieldNames := by
  simp only [collect_warnings, warningsOf_eq]
  rfl

/-- The names asked for and the names there are decide the warnings. -/
theorem collect_warnings_congr {records records' : List Record} {q q' : Query}
    (hNames : q'.fieldNames = q.fieldNames)
    (hRecords : List.Forall₂ Record.NamesAgree records records') :
    (q'.collect records').warnings = (q.collect records).warnings := by
  rw [collect_warnings_eq_lacking, collect_warnings_eq_lacking, hNames]
  induction hRecords with
  | nil => rfl
  | cons hHead _ ih => rw [List.flatMap_cons, List.flatMap_cons, ih, hHead.lackingWarnings_eq]

/--
**Warnings are exact.**

1. A collection warns, record by record and for each record name by name, of every name that is
   asked for and that the record lacks, as often as it is asked for, and of nothing else.
2. So the warnings stay the same whatever becomes of the mode, the criteria and the rows, as long
   as the same names are asked for and are there.
3. Evaluating one record, after whatever went before, gives the answer that the record gets by
   itself and adds the warnings of that record to the end of the sink.
-/
theorem warnings_exactly_for_lacking_fields :
    (∀ (records : List Record) (q : Query),
      (q.collect records).warnings =
        records.flatMap fun r => r.lackingWarnings q.fieldNames) ∧
    (∀ (records records' : List Record) (q q' : Query), q'.fieldNames = q.fieldNames →
      List.Forall₂ Record.NamesAgree records records' →
        (q'.collect records').warnings = (q.collect records).warnings) ∧
    ∀ (q : Query) (r : Record) (sink : List Warning),
      q.evaluate r sink = (q.matchesRecord r, sink ++ r.lackingWarnings q.fieldNames) := by
  refine ⟨collect_warnings_eq_lacking, fun _ _ _ _ => collect_warnings_congr, fun q r sink => ?_⟩
  rw [evaluate_eq, matchesRecord_eq, warningsOf_eq]
  rfl

/-- A name asked for twice, by a term that comes too late to matter and by one that is decisive, in
records that share an identifier. -/
theorem warnings_exactly_for_repeated_names :
    let apple : Record := (Record.new 1).withField "a" [.scalar (.int 1)]
    let pear : Record := (Record.new 1).withField "b" [.nested []]
    let bread : Record := (Record.new 1).withField "a" []
    let cake : Record := (Record.new 1).withField "b" [.scalar (.text "x"), .scalar (.bool true)]
    let strict : Query :=
      ⟨.and, [("a", .one (.int 2)), ("b", .one (.text "x")), ("b", .anyOf [])]⟩
    let lenient : Query :=
      ⟨.or, [("a", .anyOf []), ("b", .one (.bool true)), ("b", .one (.int 0))]⟩
    lenient.fieldNames = strict.fieldNames ∧
      List.Forall₂ Record.NamesAgree [apple, pear] [bread, cake] ∧
      (lenient.collect [bread, cake]).warnings = (strict.collect [apple, pear]).warnings ∧
      (strict.collect [apple, pear]).warnings = [⟨"b", 1⟩, ⟨"b", 1⟩, ⟨"a", 1⟩] := by
  intro apple pear bread cake strict lenient
  have hNames : lenient.fieldNames = strict.fieldNames := rfl
  have hRecords : List.Forall₂ Record.NamesAgree [apple, pear] [bread, cake] :=
    .cons ⟨rfl, rfl⟩ (.cons ⟨rfl, rfl⟩ .nil)
  obtain ⟨hExact, hSame, -⟩ := warnings_exactly_for_lacking_fields
  refine ⟨hNames, hRecords, hSame _ _ _ _ hNames hRecords, ?_⟩
  rw [hExact]
  decide +kernel

end Query

end FoodScan
