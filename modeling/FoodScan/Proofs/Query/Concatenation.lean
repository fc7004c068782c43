import FoodScan.Proofs.KeyMap
import FoodScan.Proofs.Query.Evaluation

/-!
# Concatenating terms, and comparing the modes

Asking a record for some terms and then for others combines the two answers (`verdict_append`). For
identifiers this makes a union of `or` queries. It makes an intersection of `and` queries only as
far as an identifier stands for one set of fields: of two records that share one, the first may
match the first terms and the second the others.

The modes differ on a record that has none of the fields asked for: nothing speaks against it and
nothing for it (`verdict_of_lacking`). On all others `and` asks for more (`verdict_or_of_and`).

Main result: `collect_append_terms`.
-/

namespace FoodScan

/-- Records that share an identifier have the same fields. -/
def SharedIdentifiersAgree (records : List Record) : Prop :=
  ∀ r ∈ records, ∀ r' ∈ records, r.identifier = r'.identifier → r.fields = r'.fields

instance (records : List Record) : Decidable (SharedIdentifiersAgree records) :=
  inferInstanceAs (Decidable (∀ r ∈ records, ∀ r' ∈ records,
    r.identifier = r'.identifier → r.fields = r'.fields))

/-- Records with distinct identifiers share none, so nothing has to agree. -/
theorem sharedIdentifiersAgree_of_nodup {records : List Record}
    (h : (records.map Record.identifier).Nodup) : SharedIdentifiersAgree records := by
  intro r hr r' hr' hId
  obtain rfl : r = r' := List.inj_on_of_nodup_map h hr hr' hId
  rfl

namespace Query

variable {records : List Record} {r : Record} {P Q : List (String × Criterion)} {i : Int64}

-- ---------------------------------------------------------------------------
-- Terms after terms
-- ---------------------------------------------------------------------------

/-- The answer to terms after terms combines the answers to both. -/
theorem verdict_append (mode : Mode) (r : Record) (P Q : List (String × Criterion)) :
    verdict mode r (P ++ Q) = combine mode (verdict mode r P) (verdict mode r Q) := by
  cases mode with
  | and => rw [verdict, List.all_append]; rfl
  | or => rw [verdict, List.any_append]; rfl

/-- The answers depend on the fields of a record alone. -/
theorem verdict_congr_fields {r' : Record} (h : r'.fields = r.fields) (mode : Mode)
    (terms : List (String × Criterion)) : verdict mode r' terms = verdict mode r terms := by
  have hAnswer : answer mode r' = answer mode r := by
    funext t
    rw [answer, answer, h]
  cases mode with
  | and => rw [verdict, verdict, hAnswer]
  | or => rw [verdict, verdict, hAnswer]

/-- Under `Or`, the identifiers of two lists of terms are those of either. -/
theorem mem_collect_or_append :
    i ∈ (collect records ⟨.or, P ++ Q⟩).ids ↔
      i ∈ (collect records ⟨.or, P⟩).ids ∨ i ∈ (collect records ⟨.or, Q⟩).ids := by
  simp only [mem_collect_ids, verdict_append, combine, Bool.or_eq_true, and_or_left, exists_or]

/-- Under `And`, an identifier both lists admit together is admitted by each alone. -/
theorem mem_collect_of_mem_and_append (h : i ∈ (collect records ⟨.and, P ++ Q⟩).ids) :
    i ∈ (collect records ⟨.and, P⟩).ids ∧ i ∈ (collect records ⟨.and, Q⟩).ids := by
  obtain ⟨r, hr, hId, hVerdict⟩ := mem_collect_ids.mp h
  rw [verdict_append, combine, Bool.and_eq_true] at hVerdict
  obtain ⟨hVerdictP, hVerdictQ⟩ := hVerdict
  exact ⟨mem_collect_ids.mpr ⟨r, hr, hId, hVerdictP⟩, mem_collect_ids.mpr ⟨r, hr, hId, hVerdictQ⟩⟩

/-- Where an identifier stands for one set of fields, `and` queries intersect. -/
theorem mem_collect_and_append (hAgree : SharedIdentifiersAgree records) :
    i ∈ (collect records ⟨.and, P ++ Q⟩).ids ↔
      i ∈ (collect records ⟨.and, P⟩).ids ∧ i ∈ (collect records ⟨.and, Q⟩).ids := by
  refine ⟨mem_collect_of_mem_and_append, fun ⟨hP, hQ⟩ => ?_⟩
  obtain ⟨r, hr, rfl, hVerdictP⟩ := mem_collect_ids.mp hP
  obtain ⟨r', hr', hId, hVerdictQ'⟩ := mem_collect_ids.mp hQ
  -- `Q` may have matched another record, but one with the fields of this one
  have hFields : r'.fields = r.fields := hAgree r' hr' r hr hId
  have hVerdictQ : verdict .and r Q = true := verdict_congr_fields hFields .and Q ▸ hVerdictQ'
  refine mem_collect_ids.mpr ⟨r, hr, rfl, ?_⟩
  rw [verdict_append, combine, Bool.and_eq_true]
  exact ⟨hVerdictP, hVerdictQ⟩

-- ---------------------------------------------------------------------------
-- The modes
-- ---------------------------------------------------------------------------

/-- A record that has none of the fields gives the answer that stands before any is asked for. -/
theorem verdict_of_lacking (mode : Mode) (h : ∀ t ∈ P, t.1 ∉ r.fields.keys) :
    verdict mode r P = start mode := by
  induction P with
  | nil => cases mode <;> rfl
  | cons t rest ih =>
    obtain ⟨hHead, hRest⟩ := List.forall_mem_cons.mp h
    have hAnswer : answer mode r t = start mode := by
      rw [answer, KeyMap.get?_eq_none_iff.mpr hHead]
    rw [verdict_cons, hAnswer, start_combine, ih hRest]

/-- Where a record has one of the fields, `and` asks for more than `or`. -/
theorem verdict_or_of_and (hField : ∃ t ∈ P, t.1 ∈ r.fields.keys)
    (hAnd : verdict .and r P = true) : verdict .or r P = true := by
  obtain ⟨t, ht, hKey⟩ := hField
  cases hRow : r.fields.get? t.1 with
  | none => exact absurd hKey (KeyMap.get?_eq_none_iff.mp hRow)
  | some row =>
    have hMeets : t.2.meets row = true := verdict_and_iff.mp hAnd t ht row hRow
    exact verdict_or_iff.mpr ⟨t, ht, row, hRow, hMeets⟩

/-- What is found in `and` mode is found in `or` mode too, but for records without the fields. -/
theorem mem_collect_or_or_lacking (h : i ∈ (collect records ⟨.and, P⟩).ids) :
    i ∈ (collect records ⟨.or, P⟩).ids ∨
      ∃ r ∈ records, r.identifier = i ∧ ∀ t ∈ P, t.1 ∉ r.fields.keys := by
  obtain ⟨r, hr, hId, hAnd⟩ := mem_collect_ids.mp h
  by_cases hField : ∃ t ∈ P, t.1 ∈ r.fields.keys
  · exact Or.inl (mem_collect_ids.mpr ⟨r, hr, hId, verdict_or_of_and hField hAnd⟩)
  · have hLacking : ∀ t ∈ P, t.1 ∉ r.fields.keys := fun t ht hKey => hField ⟨t, ht, hKey⟩
    exact Or.inr ⟨r, hr, hId, hLacking⟩

/--
**Terms after terms, and mode against mode.** For all terms `P` and `Q` and all records:

1. In `or` mode the identifiers of `P ++ Q` are those of `P` and those of `Q`.
2. In `and` mode they are among those that `P` and `Q` have in common, and all of those where
   records that share an identifier have the same fields; so in particular where no identifier is
   shared.
3. A record that has some field of `P` and matches `P` in `and` mode matches it in `or` mode.
4. A record that has no field of `P` matches `P` in `and` mode and not in `or` mode.
5. So what `P` finds in `and` mode it finds in `or` mode, but for records without its fields.
-/
theorem collect_append_terms (P Q : List (String × Criterion)) (records : List Record) :
    (∀ i, i ∈ (collect records ⟨.or, P ++ Q⟩).ids ↔
      i ∈ (collect records ⟨.or, P⟩).ids ∨ i ∈ (collect records ⟨.or, Q⟩).ids) ∧
    (∀ i ∈ (collect records ⟨.and, P ++ Q⟩).ids,
      i ∈ (collect records ⟨.and, P⟩).ids ∧ i ∈ (collect records ⟨.and, Q⟩).ids) ∧
    (SharedIdentifiersAgree records → ∀ i, i ∈ (collect records ⟨.and, P ++ Q⟩).ids ↔
      i ∈ (collect records ⟨.and, P⟩).ids ∧ i ∈ (collect records ⟨.and, Q⟩).ids) ∧
    ((records.map Record.identifier).Nodup → SharedIdentifiersAgree records) ∧
    (∀ r : Record, (∃ t ∈ P, t.1 ∈ r.fields.keys) →
      matchesRecord ⟨.and, P⟩ r = true → matchesRecord ⟨.or, P⟩ r = true) ∧
    (∀ r : Record, (∀ t ∈ P, t.1 ∉ r.fields.keys) →
      matchesRecord ⟨.and, P⟩ r = true ∧ matchesRecord ⟨.or, P⟩ r = false) ∧
    ∀ i ∈ (collect records ⟨.and, P⟩).ids, i ∈ (collect records ⟨.or, P⟩).ids ∨
      ∃ r ∈ records, r.identifier = i ∧ ∀ t ∈ P, t.1 ∉ r.fields.keys := by
  refine ⟨fun i => mem_collect_or_append, fun i => mem_collect_of_mem_and_append,
    fun hAgree i => mem_collect_and_append hAgree, sharedIdentifiersAgree_of_nodup,
    fun r hField hAnd => ?_, fun r hLacking => ?_, fun i => mem_collect_or_or_lacking⟩
  · rw [matchesRecord_eq] at hAnd ⊢
    exact verdict_or_of_and hField hAnd
  · rw [matchesRecord_eq, matchesRecord_eq]
    exact ⟨verdict_of_lacking .and hLacking, verdict_of_lacking .or hLacking⟩

/-- A record twice, read from two files, and one that lacks a field asked for. -/
theorem collect_append_terms_of_repeated_record :
    let loaf : Record := ((Record.new 3).withField "grain" [.scalar (.text "rye")]).withField
      "weight" [.scalar (.int 500)]
    let copy : Record := { loaf with source := some "copy.toml" }
    let roll : Record := (Record.new 8).withField "weight" [.nested [.int 60]]
    let P : List (String × Criterion) := [("grain", .one (.text "rye"))]
    let Q : List (String × Criterion) := [("weight", .anyOf [.one (.int 60), .one (.int 500)])]
    SharedIdentifiersAgree [loaf, copy, roll] ∧
      3 ∈ (collect [loaf, copy, roll] ⟨.and, P ++ Q⟩).ids ∧
      ([loaf, roll].map Record.identifier).Nodup ∧ SharedIdentifiersAgree [loaf, roll] ∧
      (∃ t ∈ P, t.1 ∈ loaf.fields.keys) ∧ matchesRecord ⟨.and, P⟩ loaf = true ∧
      matchesRecord ⟨.or, P⟩ loaf = true ∧
      (∀ t ∈ P, t.1 ∉ roll.fields.keys) ∧ matchesRecord ⟨.and, P⟩ roll = true ∧
      matchesRecord ⟨.or, P⟩ roll = false := by
  intro loaf copy roll P Q
  obtain ⟨-, -, hIntersection, -, hHas, hLacks, -⟩ := collect_append_terms P Q [loaf, copy, roll]
  obtain ⟨-, -, -, hNodup, -⟩ := collect_append_terms P Q [loaf, roll]
  -- the two loaves share an identifier and differ only in their source
  have hAgree : SharedIdentifiersAgree [loaf, copy, roll] := by decide +kernel
  have hDistinct : ([loaf, roll].map Record.identifier).Nodup := by decide +kernel
  have hField : ∃ t ∈ P, t.1 ∈ loaf.fields.keys := by decide +kernel
  have hNoField : ∀ t ∈ P, t.1 ∉ roll.fields.keys := by decide +kernel
  have hMatch : matchesRecord ⟨.and, P⟩ loaf = true := by decide +kernel
  have hP : 3 ∈ (collect [loaf, copy, roll] ⟨.and, P⟩).ids :=
    mem_collect_ids.mpr ⟨loaf, List.mem_cons_self, rfl, by decide +kernel⟩
  have hQ : 3 ∈ (collect [loaf, copy, roll] ⟨.and, Q⟩).ids :=
    mem_collect_ids.mpr ⟨loaf, List.mem_cons_self, rfl, by decide +kernel⟩
  exact ⟨hAgree, (hIntersection hAgree 3).mpr ⟨hP, hQ⟩, hDistinct, hNodup hDistinct, hField, hMatch,
    hHas loaf hField hMatch, hNoField, hLacks roll hNoField⟩

/-- Records of one identifier that differ: each term finds it, and both together do not. -/
example :
    let cold : Record := (Record.new 5).withField "state" [.scalar (.text "cold")]
    let warm : Record := (Record.new 5).withField "state" [.scalar (.text "warm")]
    let isCold : String × Criterion := ("state", .one (.text "cold"))
    let isWarm : String × Criterion := ("state", .one (.text "warm"))
    (collect [cold, warm] ⟨.and, [isCold]⟩).ids = [5] ∧
      (collect [cold, warm] ⟨.and, [isWarm]⟩).ids = [5] ∧
      (collect [cold, warm] ⟨.and, [isCold] ++ [isWarm]⟩).ids = [] := by
  decide +kernel

end Query

end FoodScan
