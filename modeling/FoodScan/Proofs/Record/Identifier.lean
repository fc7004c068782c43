import FoodScan.Proofs.Json.Canonical
import FoodScan.Proofs.Query.Satisfaction
import FoodScan.Proofs.Record.Flattening

/-!
# The identifier and the field of its name

A record is identified by the `gid` of its document. The field `gid` starts out as the same number,
but fields are filled in key order, tables included, and of several definitions of one name the
last one counts: the `gid` member of a table that is named after `gid` takes the place of it.

* `Flattening.get?_identifierField` — the field is read from such a member, if there is one, and
  from the document's own `gid` otherwise.
* `identifier_field_overridden` — so the two can disagree.

Main result: `identifier_field_agrees` — they agree unless a table overrides the field with
something else, and then asking for `gid` finds a record by its identifier.
-/

namespace FoodScan

-- ---------------------------------------------------------------------------
-- Tables after the identifier
-- ---------------------------------------------------------------------------

/-- The `gid` member of a table. -/
def tableIdentifier? (e : String × Json) : Option Json :=
  match e.2 with
  | .object table => table.lookup identifierField
  | _ => none

/-- What takes the place of a document's own `gid` among the fields: the `gid` member of the last
table, in key order, that stands behind it and has one. -/
def overridingIdentifier? : Json → Option Json
  | .object members =>
    (members.reverse.filter fun e => identifierField < e.1).findSome? tableIdentifier?
  | _ => none

/-- The last definition of a name is the last one of the last member that has any. -/
theorem lookup_reverse_definitions (name : String) (members : List (String × Json)) :
    (definitions members).reverse.lookup name =
      members.reverse.findSome? fun e => (definitionsOf e).reverse.lookup name := by
  induction members with
  | nil => rfl
  | cons e rest ih =>
    have hSplit : definitions (e :: rest) = definitionsOf e ++ definitions rest := List.flatMap_cons
    rw [hSplit, List.reverse_append, List.lookup_append, ih, List.reverse_cons,
      List.findSome?_append, List.findSome?_singleton]

/-- Behind the document's own `gid`, only tables define the field. -/
theorem lookup_reverse_definitionsOf {e : String × Json} (hLater : identifierField < e.1)
    (hValue : e.2.Canonical) :
    (definitionsOf e).reverse.lookup identifierField = tableIdentifier? e := by
  obtain ⟨name, v⟩ := e
  have hOther : [(name, v)].lookup identifierField = none := by
    have hb : (identifierField == name) = false :=
      beq_eq_false_iff_ne.mpr (String.ne_of_lt hLater)
    simp [List.lookup_cons, hb]
  cases hValue with
  | @object table hAsc _ => exact Entries.lookup_reverse hAsc identifierField
  | _ => exact hOther

/-- The members of a document behind its own `gid`, last first. -/
theorem filter_reverse_split {before after : List (String × Json)} {v : Json}
    (hAsc : Entries.Ascending (before ++ (identifierField, v) :: after)) :
    ((before ++ (identifierField, v) :: after).reverse.filter fun e => identifierField < e.1) =
      after.reverse := by
  -- keys ascend, so what comes before the identifier is below it
  have hBefore : before.reverse.filter (fun e => decide (identifierField < e.1)) = [] := by
    rw [List.filter_eq_nil_iff]
    intro e he
    have hLt := (hAsc.mem_before_iff.mp (List.mem_reverse.mp he)).2
    simpa using String.lt_asymm hLt
  have hAfter : after.reverse.filter (fun e => decide (identifierField < e.1)) = after.reverse := by
    rw [List.filter_eq_self]
    intro e he
    exact decide_eq_true (hAsc.lt_of_mem_after (List.mem_reverse.mp he))
  have hSelf : [(identifierField, v)].filter (fun e => decide (identifierField < e.1)) = [] :=
    List.filter_cons_of_neg (by rw [decide_eq_true_eq]; exact String.lt_irrefl _)
  rw [List.reverse_append, List.reverse_cons, List.filter_append, List.filter_append, hBefore,
    hAfter, hSelf, List.append_nil, List.append_nil]

/-- **The last definition of `gid`** is the overriding one, if there is any. -/
theorem lookup_reverse_definitions_identifier {members : List (String × Json)} {n : Int64}
    (hDoc : (Json.object members).Canonical)
    (hId : (members.lookup identifierField).bind Json.toInt64? = some n) :
    (definitions members).reverse.lookup identifierField =
      (overridingIdentifier? (.object members)).or (members.lookup identifierField) := by
  obtain ⟨v, hLookup, hInt⟩ := Option.bind_eq_some_iff.mp hId
  cases hDoc with
  | object hAsc hValues =>
    -- the document's own `gid` is a number, so it defines itself
    have hSelf : (definitionsOf (identifierField, v)).reverse.lookup identifierField = some v := by
      cases v with
      | number m => rfl
      | _ => cases hInt
    obtain ⟨before, after, rfl⟩ := List.append_of_mem (Entries.mem_of_lookup_eq_some hLookup)
    have hAfter : after.reverse.findSome?
          (fun e => (definitionsOf e).reverse.lookup identifierField) =
        after.reverse.findSome? tableIdentifier? := by
      refine findSome?_congr fun e he => ?_
      have hMem := List.mem_reverse.mp he
      exact lookup_reverse_definitionsOf (hAsc.lt_of_mem_after hMem) (hValues e (by simp [hMem]))
    rw [lookup_reverse_definitions, overridingIdentifier?, filter_reverse_split hAsc, hLookup,
      ← hAfter, List.reverse_append, List.reverse_cons, List.append_assoc, List.findSome?_append,
      List.singleton_append, List.findSome?_cons, hSelf]

-- ---------------------------------------------------------------------------
-- The field against the identifier
-- ---------------------------------------------------------------------------

theorem Scalar.ofJson?_eq_int_iff {v : Json} {n : Int64} :
    Scalar.ofJson? v = some (.int n) ↔ v.toInt64? = some n := by
  cases v with
  | number m =>
    cases m with
    | integer i =>
      rw [Scalar.ofJson?, Json.toInt64?]
      cases int64? i <;> simp
    | float x => simp [Scalar.ofJson?, Json.toInt64?]
  | _ => simp [Scalar.ofJson?, Json.toInt64?]

/-- A row of one integer is read from that integer and from nothing else. -/
theorem Row.ofJson_eq_int_iff {v : Json} {n : Int64} :
    Row.ofJson v = .ok [.scalar (.int n)] ↔ v.toInt64? = some n := by
  rw [← Scalar.ofJson?_eq_int_iff, Row.ofJson_eq_ok_iff]
  constructor
  · intro h
    generalize hRow : [RowElement.scalar (.int n)] = row at h
    cases h with
    | scalar hScalar =>
      obtain rfl := RowElement.scalar.inj (List.head_eq_of_cons_eq hRow)
      exact hScalar
    | list _ => cases hRow
    | @lists inners groups hne hGroups =>
      -- groups are no scalars
      cases groups with
      | nil => cases hRow
      | cons group rest => cases hRow
  · exact Reads.scalar

/-- The field is read from what overrides the document's own `gid`, or else from that. -/
theorem Flattening.get?_identifierField {members : List (String × Json)} {path : String}
    {r : Record} {rows : Entries Row} (h : Flattening members path r rows)
    (hDoc : (Json.object members).Canonical) :
    r.fields.get? identifierField =
      ((overridingIdentifier? (.object members)).or (members.lookup identifierField)).bind
        fun v => (Row.ofJson v).toOption := by
  rw [h.get?_eq, lookup_reverse_definitions_identifier hDoc h.identifier]

/-- The `gid` field of the record of a document is the identifier if and only if no table overrides
it with anything else. -/
theorem get?_identifierField_iff {d : Json} {path : String} {r : Record} (hDoc : d.Canonical)
    (h : flatten d path = .ok r) :
    r.fields.get? identifierField = some [.scalar (.int r.identifier)] ↔
      ∀ v, overridingIdentifier? d = some v → v.toInt64? = some r.identifier := by
  obtain ⟨members, rows, rfl, hFlat⟩ := flatten_eq_ok_iff.mp h
  -- a row is the identifier's own exactly if it was read from that integer
  have hRow : ∀ v, (Row.ofJson v).toOption = some [.scalar (.int r.identifier)] ↔
      v.toInt64? = some r.identifier := by
    intro v
    rw [← Row.ofJson_eq_int_iff]
    cases Row.ofJson v <;> simp [Except.toOption]
  rw [hFlat.get?_identifierField hDoc]
  cases overridingIdentifier? (.object members) with
  | some v => simp [hRow]
  | none =>
    obtain ⟨v, hLookup, hInt⟩ := Option.bind_eq_some_iff.mp hFlat.identifier
    simp [hLookup, hRow, hInt]

/-- A table named after `gid` puts a number of its own into the field. -/
theorem identifier_field_overridden :
    let document : Json := .object
      [("gid", .number (.integer 1)), ("t", .object [("gid", .number (.integer 2))])]
    let record : Record :=
      { identifier := 1
        fields := KeyMap.ofList [("gid", [.scalar (.int 2)])]
        source := some "a.toml" }
    document.Canonical ∧ flatten document "a.toml" = .ok record ∧
      record.fields.get? identifierField ≠ some [.scalar (.int record.identifier)] ∧
      ∀ mode, (Query.collect [record] ⟨mode, [(identifierField, .one (.int 2))]⟩).ids = [1] ∧
        (Query.collect [record] ⟨mode, [(identifierField, .one (.int 1))]⟩).ids = [] := by
  refine ⟨by decide +kernel, rfl, by decide +kernel, fun mode => ?_⟩
  cases mode <;> decide +kernel

-- ---------------------------------------------------------------------------
-- Asking for an identifier
-- ---------------------------------------------------------------------------

/-- The query for one identifier. -/
def identifierQuery (mode : Mode) (n : Int64) : Query :=
  ⟨mode, [(identifierField, .one (.int n))]⟩

/-- Where field and identifier agree, the query selects by the identifier. -/
theorem satisfiedBy_identifierQuery_iff {r : Record} {mode : Mode} {n : Int64}
    (hGid : r.fields.get? identifierField = some [.scalar (.int r.identifier)]) :
    (identifierQuery mode n).SatisfiedBy r ↔ r.identifier = n := by
  have hMet : Criterion.MetBy [.scalar (.int r.identifier)] (.one (.int n)) ↔ r.identifier = n := by
    rw [← Criterion.meets_iff]
    simp [Criterion.meets, Row.holds, RowElement.holds, Scalar.same]
  cases mode <;> simp [Query.SatisfiedBy, identifierQuery, hGid, hMet]

/-- Of the identifiers of records that agree with their field, the query collects the one asked
for. -/
theorem mem_collect_identifierQuery {records : List Record} {mode : Mode} {n i : Int64}
    (hGid : ∀ r ∈ records, r.fields.get? identifierField = some [.scalar (.int r.identifier)]) :
    i ∈ ((identifierQuery mode n).collect records).ids ↔
      i = n ∧ ∃ r ∈ records, r.identifier = n := by
  rw [Query.mem_collect_ids]
  constructor
  · rintro ⟨r, hMem, rfl, hVerdict⟩
    have hId := (satisfiedBy_identifierQuery_iff (hGid r hMem)).mp (Query.verdict_iff.mp hVerdict)
    exact ⟨hId, r, hMem, hId⟩
  · rintro ⟨rfl, r, hMem, hId⟩
    exact ⟨r, hMem, hId,
      Query.verdict_iff.mpr ((satisfiedBy_identifierQuery_iff (hGid r hMem)).mpr hId)⟩

/-- The only member of a strictly ascending list is all of it. -/
theorem eq_singleton_of_ascending {xs : List Int64} {n : Int64} (hAsc : xs.Pairwise (· < ·))
    (h : ∀ i, i ∈ xs ↔ i = n) : xs = [n] :=
  hAsc.eq_of_mem_iff (List.pairwise_singleton _ _) fun i => (h i).trans List.mem_singleton.symm

/--
**Identifier and field.** Whenever a document is flattened into a record, its `gid` field is the
identifier if and only if no table that is named after `gid` overrides it with anything else.

Over any list of records from documents in which no table does, asking for `gid` in either mode
finds the identifier asked for, once, if some record has it, and nothing if none has.
-/
theorem identifier_field_agrees :
    (∀ (d : Json) (path : String) (r : Record), d.Canonical → flatten d path = .ok r →
      (r.fields.get? identifierField = some [.scalar (.int r.identifier)] ↔
        ∀ v, overridingIdentifier? d = some v → v.toInt64? = some r.identifier)) ∧
    ∀ records : List Record,
      (∀ r ∈ records, ∃ d path, d.Canonical ∧ flatten d path = .ok r ∧
        ∀ v, overridingIdentifier? d = some v → v.toInt64? = some r.identifier) →
      ∀ (mode : Mode) (n : Int64),
        ((∃ r ∈ records, r.identifier = n) →
          ((identifierQuery mode n).collect records).ids = [n]) ∧
        ((∀ r ∈ records, r.identifier ≠ n) →
          ((identifierQuery mode n).collect records).ids = []) := by
  refine ⟨fun d path r => get?_identifierField_iff, fun records hRecords mode n => ?_⟩
  -- every record shows its identifier in the field that the query asks for
  have hGid : ∀ r ∈ records,
      r.fields.get? identifierField = some [.scalar (.int r.identifier)] := by
    intro r hr
    obtain ⟨d, path, hDoc, hFlat, hOverride⟩ := hRecords r hr
    exact (get?_identifierField_iff hDoc hFlat).mpr hOverride
  constructor
  · intro hSome
    refine eq_singleton_of_ascending (Query.collect_ids_ascending _ _) fun i => ?_
    rw [mem_collect_identifierQuery hGid]
    exact and_iff_left hSome
  · intro hNone
    rw [List.eq_nil_iff_forall_not_mem]
    intro i hi
    obtain ⟨-, r, hr, hId⟩ := (mem_collect_identifierQuery hGid).mp hi
    exact hNone r hr hId

/-- A table before `gid` and one that repeats the number change nothing. -/
theorem identifier_field_agrees_of_repeated :
    let repeated : Json := .object
      [("a", .object [("gid", .number (.integer 9))]), ("gid", .number (.integer 1)),
       ("t", .object [("gid", .number (.integer 1))])]
    let plain : Json := .object [("gid", .number (.integer 2))]
    let first : Record :=
      { identifier := 1
        fields := KeyMap.ofList [("gid", [.scalar (.int 1)])]
        source := some "a.toml" }
    let second : Record :=
      { identifier := 2
        fields := KeyMap.ofList [("gid", [.scalar (.int 2)])]
        source := some "b.toml" }
    repeated.Canonical ∧ flatten repeated "a.toml" = .ok first ∧
      plain.Canonical ∧ flatten plain "b.toml" = .ok second ∧
      first.fields.get? identifierField = some [.scalar (.int first.identifier)] ∧
      ((identifierQuery .or 2).collect [first, second]).ids = [2] ∧
      ((identifierQuery .and 3).collect [first, second]).ids = [] := by
  intro repeated plain first second
  have hRepeated : repeated.Canonical := by decide +kernel
  have hFirst : flatten repeated "a.toml" = .ok first := by rfl
  have hPlain : plain.Canonical := by decide +kernel
  have hSecond : flatten plain "b.toml" = .ok second := by rfl
  -- the definition that comes last repeats the identifier
  have hRepeats : ∀ v, overridingIdentifier? repeated = some v →
      v.toInt64? = some first.identifier := by
    rintro v ⟨⟩
    rfl
  have hAlone : ∀ v, overridingIdentifier? plain = some v →
      v.toInt64? = some second.identifier := by
    rintro v ⟨⟩
  obtain ⟨hField, hCollect⟩ := identifier_field_agrees
  have hRecords : ∀ r ∈ [first, second], ∃ d path, d.Canonical ∧ flatten d path = .ok r ∧
      ∀ v, overridingIdentifier? d = some v → v.toInt64? = some r.identifier := by
    intro r hr
    rcases List.mem_cons.mp hr with rfl | hr'
    · exact ⟨repeated, "a.toml", hRepeated, hFirst, hRepeats⟩
    · obtain rfl := List.mem_singleton.mp hr'
      exact ⟨plain, "b.toml", hPlain, hSecond, hAlone⟩
  refine ⟨hRepeated, hFirst, hPlain, hSecond, ?_, ?_, ?_⟩
  · exact (hField repeated "a.toml" first hRepeated hFirst).mpr hRepeats
  · exact (hCollect _ hRecords .or 2).1 ⟨second, by simp, rfl⟩
  · refine (hCollect _ hRecords .and 3).2 fun r hr => ?_
    rcases List.mem_cons.mp hr with rfl | hr'
    · decide
    · obtain rfl := List.mem_singleton.mp hr'
      decide

end FoodScan
