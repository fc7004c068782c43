import FoodScan.Proofs.Query.Reading
import FoodScan.Proofs.Query.Satisfaction
import FoodScan.Proofs.Record.Rendering

/-!
# Printed records as queries

A printed record is a JSON object from field names to lists of scalars, and so is a query. Rows and
criteria are read by two grammars, though, and printing a row drops a list level when the row has
one element. `Row.AsksFor` says which criterion the printed form of a row amounts to: its one
value, one of the values of its only group, or one of its groups.

* `Criterion.ofJson_toJson` — the printed form of a row of a document is read as that criterion, or
  refused when an empty group is among several.
* `Row.AsksFor.metBy_iff` — a row meets what its own printed form asks for, unless it is a single
  empty group, which asks for one of no values.

Main result: `printed_selects_itself` — when the printed form of a record is a query, and whether
that query selects the record.
-/

namespace FoodScan

-- ---------------------------------------------------------------------------
-- Rows
-- ---------------------------------------------------------------------------

namespace Row

/-- An empty group is among several elements. -/
def HasEmptyGroup (row : Row) : Prop := 2 ≤ row.length ∧ RowElement.nested [] ∈ row

/-- What the printed form of a row asks for. -/
inductive AsksFor : Row → Criterion → Prop
  | scalar (s : Scalar) : AsksFor [.scalar s] (.one s)
  | group (scalars : List Scalar) : AsksFor [.nested scalars] (.anyOfScalars scalars)
  | groups {groups : List AndGroup} (h : 2 ≤ groups.length) :
      AsksFor ((groups.map AndGroup.scalars).map .nested) (.anyOf (groups.map .all))

end Row

/-- A scalar is read as itself from the way it is shown. -/
theorem scalarFor_toJson {field : String} {s : Scalar} (h : s.isNonFinite = false) :
    scalarFor field s.toJson = .ok s := by
  rw [scalarFor_eq_ok_iff, Scalar.ofJson?_toJson, h]
  rfl

namespace Alternative

/-- A finite scalar that is printed is read back as the criterion that asks for it. -/
theorem ofJson_scalar {field : String} {s : Scalar} (h : s.isNonFinite = false) :
    Alternative.ofJson field s.toJson = .ok (.one s) := by
  rw [ofJson_of_not_list (Scalar.items?_toJson s), scalarFor_toJson h]
  rfl

/-- A group is read as itself; the empty one is refused. -/
theorem ofJson_group {field : String} {scalars : List Scalar}
    (h : ∀ s ∈ scalars, s.isNonFinite = false) :
    Alternative.ofJson field (.array (scalars.map Scalar.toJson)) =
      match AndGroup.ofList? scalars with
      | some group => .ok (.all group)
      | none => .error (.emptyGroup field) :=
  ofJson_array (scalarsRead_toJson h)

/-- An empty group among others is what is wrong with them. -/
theorem mapM_ofJson_groups_eq_error {field : String} {groups : List (List Scalar)}
    (h : ∀ group ∈ groups, ∀ s ∈ group, s.isNonFinite = false) (hEmpty : [] ∈ groups) :
    ((groups.map (List.map Scalar.toJson)).map .array).mapM (Alternative.ofJson field) =
      .error (.emptyGroup field) := by
  induction groups with
  | nil => simp at hEmpty
  | cons group rest ih =>
    obtain ⟨hGroup, hRest⟩ := List.forall_mem_cons.mp h
    rw [List.map_cons, List.map_cons, mapM_cons_eq_error_iff, ofJson_group hGroup]
    -- the empty list is the first group, or it is behind a group that is read
    rcases List.mem_cons.mp hEmpty with rfl | hEmpty'
    · exact Or.inl rfl
    · cases AndGroup.ofList? group with
      | none => exact Or.inl rfl
      | some g => exact Or.inr ⟨.all g, rfl, ih hRest hEmpty'⟩

end Alternative

/-- Groups with members are alternatives. -/
theorem exists_andGroups {groups : List (List Scalar)} (h : [] ∉ groups) :
    ∃ andGroups : List AndGroup, andGroups.map AndGroup.scalars = groups := by
  induction groups with
  | nil => exact ⟨[], rfl⟩
  | cons group rest ih =>
    rw [List.mem_cons, not_or] at h
    obtain ⟨andGroups, hRest⟩ := ih h.2
    exact ⟨⟨group, Ne.symm h.1⟩ :: andGroups, by rw [List.map_cons, hRest]⟩

namespace Criterion

theorem ofJson_scalar {field : String} {s : Scalar} (h : s.isNonFinite = false) :
    Criterion.ofJson field (Row.toJson [.scalar s]) = .ok (.one s) := by
  show Criterion.ofJson field s.toJson = _
  rw [ofJson_of_not_list (Scalar.items?_toJson s), scalarFor_toJson h]
  rfl

/-- A printed group of finite scalars is read back as the choice among them. -/
theorem ofJson_group {field : String} {scalars : List Scalar}
    (h : ∀ s ∈ scalars, s.isNonFinite = false) :
    Criterion.ofJson field (Row.toJson [.nested scalars]) = .ok (.anyOfScalars scalars) := by
  refine ofJson_eq_ok_iff.mpr (.anyOf ?_)
  rw [List.forall₂_map_left_iff, List.forall₂_map_right_iff, List.forall₂_same]
  intro s hs
  exact Alternative.ofJson_eq_ok_iff.mp (@Alternative.ofJson_scalar field s (h s hs))

/-- Several groups with members are read as alternatives. -/
theorem ofJson_groups {field : String} {groups : List AndGroup} (hLength : 2 ≤ groups.length)
    (h : ∀ g ∈ groups, ∀ s ∈ g.scalars, s.isNonFinite = false) :
    Criterion.ofJson field (Row.toJson ((groups.map AndGroup.scalars).map .nested)) =
      .ok (.anyOf (groups.map .all)) := by
  rw [Row.toJson_groups (by simpa using hLength)]
  refine ofJson_eq_ok_iff.mpr (.anyOf ?_)
  rw [List.map_map, List.map_map, List.forall₂_map_left_iff, List.forall₂_map_right_iff,
    List.forall₂_same]
  intro g hg
  exact .all (scalarsRead_toJson (h g hg))

/-- **One row.** The printed form of a row of a document is read as what it asks for; that there is
an empty group among several is the only reason to refuse it. -/
theorem ofJson_toJson (field : String) {row : Row} (h : row.Readable) :
    (∃ c, row.AsksFor c ∧ ¬ row.HasEmptyGroup ∧
      Criterion.ofJson field (Row.toJson row) = .ok c) ∨
    (row.HasEmptyGroup ∧
      Criterion.ofJson field (Row.toJson row) = .error (.emptyGroup field)) := by
  have hSingle : ∀ element : RowElement, ¬ Row.HasEmptyGroup [element] := by
    intro element hRow
    have := hRow.1
    simp at this
  cases h with
  | @scalar s hs => exact Or.inl ⟨.one s, .scalar s, hSingle _, ofJson_scalar hs⟩
  | @group scalars hs =>
    exact Or.inl ⟨.anyOfScalars scalars, .group scalars, hSingle _, ofJson_group hs⟩
  | @groups groups hLength hFinite =>
    -- an empty group among several is printed as an empty list, which asks for nothing
    by_cases hEmpty : [] ∈ groups
    · refine Or.inr ⟨⟨by simpa using hLength, List.mem_map_of_mem hEmpty⟩, ?_⟩
      rw [Row.toJson_groups hLength, ofJson_array,
        Alternative.mapM_ofJson_groups_eq_error hFinite hEmpty]
      rfl
    · obtain ⟨andGroups, rfl⟩ := exists_andGroups hEmpty
      rw [List.length_map] at hLength
      refine Or.inl ⟨_, .groups hLength, ?_, ofJson_groups hLength fun g hg =>
        hFinite g.scalars (List.mem_map_of_mem hg)⟩
      rintro ⟨-, hMem⟩
      obtain ⟨group, hGroup, hNested⟩ := List.mem_map.mp hMem
      obtain rfl := RowElement.nested.inj hNested
      exact hEmpty hGroup

/-- Only an empty group among several is refused. -/
theorem ofJson_toJson_eq_error_iff {field : String} {row : Row} {why : QueryError}
    (h : row.Readable) :
    Criterion.ofJson field (Row.toJson row) = .error why ↔
      row.HasEmptyGroup ∧ why = .emptyGroup field := by
  rcases ofJson_toJson field h with ⟨c, -, hNone, hOk⟩ | ⟨hSome, hError⟩
  · rw [hOk]
    exact ⟨fun hNever => (by cases hNever), fun hRow => absurd hRow.1 hNone⟩
  · rw [hError, Except.error.injEq]
    exact ⟨fun hWhy => ⟨hSome, hWhy.symm⟩, fun hRow => hRow.2.symm⟩

/-- A criterion read from a printed row asks for what the row holds, and such a row has no empty
group. -/
theorem Reads.asksFor {row : Row} {c : Criterion} (hReads : Criterion.Reads (Row.toJson row) c)
    (h : row.Readable) : row.AsksFor c ∧ ¬ row.HasEmptyGroup := by
  have hRead : Criterion.ofJson "" (Row.toJson row) = .ok c := ofJson_eq_ok_iff.mpr hReads
  rcases ofJson_toJson "" h with ⟨c', hAsks, hNone, hOk⟩ | ⟨-, hError⟩
  · obtain rfl : c' = c := Except.ok.inj (hOk.symm.trans hRead)
    exact ⟨hAsks, hNone⟩
  · rw [hError] at hRead
    cases hRead

/-- An empty group is all that keeps a printed row from being read. -/
theorem exists_reads_iff {row : Row} (h : row.Readable) :
    (∃ c, Criterion.Reads (Row.toJson row) c) ↔ ¬ row.HasEmptyGroup := by
  constructor
  · rintro ⟨c, hReads⟩
    exact (hReads.asksFor h).2
  · intro hNone
    rcases ofJson_toJson "" h with ⟨c, -, -, hOk⟩ | ⟨hSome, -⟩
    · exact ⟨c, ofJson_eq_ok_iff.mp hOk⟩
    · exact absurd hSome hNone

end Criterion

-- ---------------------------------------------------------------------------
-- A row against its own printed form
-- ---------------------------------------------------------------------------

namespace Row

/-- No scalar of a row of a document is a NaN or an infinity. -/
theorem Readable.isNonFinite {row : Row} (h : row.Readable) {element : RowElement}
    (hElement : element ∈ row) : ∀ s ∈ element.scalars, s.isNonFinite = false := by
  cases h with
  | @scalar t ht =>
    rw [List.mem_singleton.mp hElement]
    intro s hs
    rw [List.mem_singleton.mp hs]
    exact ht
  | @group scalars hFinite =>
    rw [List.mem_singleton.mp hElement]
    exact hFinite
  | @groups groups hLength hFinite =>
    obtain ⟨group, hGroup, rfl⟩ := List.mem_map.mp hElement
    exact hFinite group hGroup

/-- A row of a document contains its scalars: each of them equals itself. -/
theorem Readable.contains {row : Row} (h : row.Readable) {element : RowElement}
    (hElement : element ∈ row) {s : Scalar} (hs : s ∈ element.scalars) : row.Contains s := by
  have hSelf : s.Equals s :=
    Scalar.same_iff_equals.mp (Scalar.same_self (h.isNonFinite hElement s hs))
  cases element with
  | scalar t =>
    obtain rfl := List.mem_singleton.mp hs
    exact Or.inl ⟨s, hElement, hSelf⟩
  | nested items => exact Or.inr ⟨items, hElement, s, hs, hSelf⟩

/-- **A row against itself.** A row of a document meets what its printed form asks for, unless it is
a single empty group. -/
theorem AsksFor.metBy_iff {row : Row} {c : Criterion} (hAsks : row.AsksFor c) (h : row.Readable) :
    c.MetBy row ↔ row ≠ [.nested []] := by
  cases hAsks with
  | scalar s =>
    have hContains : Row.Contains [.scalar s] s :=
      h.contains List.mem_cons_self (List.mem_singleton.mpr rfl)
    simp [Criterion.MetBy, hContains]
  | group scalars =>
    constructor
    · rintro ⟨a, ha, -⟩ hEmpty
      obtain ⟨s, hs, rfl⟩ := List.mem_map.mp ha
      obtain rfl : scalars = [] := by simpa using hEmpty
      simp at hs
    · intro hne
      obtain ⟨s, rest, rfl⟩ := List.exists_cons_of_ne_nil (l := scalars) (by simpa using hne)
      exact ⟨.one s, List.mem_cons_self, h.contains List.mem_cons_self List.mem_cons_self⟩
  | @groups groups hLength =>
    constructor
    · intro _ hSingle
      have hLength' := congrArg List.length hSingle
      simp at hLength'
      omega
    · intro _
      -- the first group will do
      obtain ⟨g, rest, rfl⟩ := List.exists_cons_of_length_pos (by omega : 0 < groups.length)
      exact ⟨.all g, List.mem_cons_self, fun s hs => h.contains List.mem_cons_self hs⟩

end Row

-- ---------------------------------------------------------------------------
-- A record against its own printed form
-- ---------------------------------------------------------------------------

namespace Record

/-- The first field, in key order, with an empty group among several elements. -/
def FirstEmptyGroup (r : Record) (field : String) : Prop :=
  (∃ row, r.fields.get? field = some row ∧ row.HasEmptyGroup) ∧
    ∀ other row, r.fields.get? other = some row → row.HasEmptyGroup → field ≤ other

/-- In `and` mode no row is a single empty group, in `or` mode some row is not. -/
def MeetsItself (r : Record) : Mode → Prop
  | .and => ∀ field row, r.fields.get? field = some row → row ≠ [.nested []]
  | .or => ∃ field row, r.fields.get? field = some row ∧ row ≠ [.nested []]

variable {r : Record} {mode : Mode} {q : Query}

/-- A printed record is no query for the first of its fields that has an empty group among
several. -/
theorem Readable.ofJson_toJson_eq_error_iff (h : r.Readable) {why : QueryError} :
    Query.ofJson mode r.toJson = .error why ↔
      ∃ field, r.FirstEmptyGroup field ∧ why = .emptyGroup field := by
  have hAsc : Entries.Ascending (r.fields.entries.map fun e => (e.1, Row.toJson e.2)) :=
    r.fields.ascending.map fun _ row => Row.toJson row
  rw [Record.toJson, Query.ofJson_eq_error_iff hAsc]
  simp only [FirstEmptyGroup, KeyMap.get?_eq_some_iff]
  constructor
  · rintro ⟨_, hMember, hError, hBefore⟩
    obtain ⟨e, he, rfl⟩ := List.mem_map.mp hMember
    obtain ⟨hRow, rfl⟩ := (Criterion.ofJson_toJson_eq_error_iff (h e he)).mp hError
    refine ⟨e.1, ⟨⟨e.2, he, hRow⟩, fun other row hMem hOther => ?_⟩, rfl⟩
    -- an earlier field with an empty group would have been refused first
    refine String.not_lt.mp fun hLt => ?_
    have hReads := hBefore (other, Row.toJson row) (List.mem_map.mpr ⟨_, hMem, rfl⟩) hLt
    exact (Criterion.exists_reads_iff (h _ hMem)).mp hReads hOther
  · rintro ⟨field, ⟨⟨row, hMem, hRow⟩, hLeast⟩, rfl⟩
    refine ⟨(field, Row.toJson row), List.mem_map.mpr ⟨_, hMem, rfl⟩, ?_, fun g hg hLt => ?_⟩
    · exact (Criterion.ofJson_toJson_eq_error_iff (h _ hMem)).mpr ⟨hRow, rfl⟩
    · obtain ⟨f, hf, rfl⟩ := List.mem_map.mp hg
      refine (Criterion.exists_reads_iff (h f hf)).mpr fun hOther => ?_
      exact absurd hLt (String.not_lt.mpr (hLeast f.1 f.2 hf hOther))

/-- The terms of a printed record ask its rows for what they hold. -/
theorem Readable.asksFor (h : r.Readable) (hQuery : Query.ofJson mode r.toJson = .ok q) :
    q.mode = mode ∧
      List.Forall₂ (fun e t => t.1 = e.1 ∧ Row.AsksFor e.2 t.2 ∧ ¬ Row.HasEmptyGroup e.2)
        r.fields.entries q.terms := by
  obtain ⟨hMode, hTerms⟩ := Query.ofJson_eq_ok_iff.mp hQuery
  rw [List.forall₂_map_left_iff] at hTerms
  refine ⟨hMode, ((List.forall₂_and_left _ _).mpr ⟨h, hTerms⟩).imp ?_⟩
  rintro e t ⟨hReadable, hName, hReads⟩
  exact ⟨hName, hReads.asksFor hReadable⟩

/-- A printed record is a query if no field has an empty group among several elements. -/
theorem Readable.exists_ofJson_toJson_iff (h : r.Readable) :
    (∃ q, Query.ofJson mode r.toJson = .ok q) ↔
      ∀ field row, r.fields.get? field = some row → ¬ row.HasEmptyGroup := by
  constructor
  · rintro ⟨q, hQuery⟩ field row hRow
    obtain ⟨t, -, -, -, hNone⟩ :=
      exists_of_mem_right (h.asksFor hQuery).2.flip (KeyMap.get?_eq_some_iff.mp hRow)
    exact hNone
  · intro hNone
    cases hQuery : Query.ofJson mode r.toJson with
    | ok q => exact ⟨q, rfl⟩
    | error why =>
      obtain ⟨field, ⟨⟨row, hRow, hSome⟩, -⟩, -⟩ := h.ofJson_toJson_eq_error_iff.mp hQuery
      exact absurd hSome (hNone field row hRow)

/-- Every term of a printed record is about a field that the record has. -/
theorem Readable.warningsOf_eq_nil (h : r.Readable)
    (hQuery : Query.ofJson mode r.toJson = .ok q) : Query.warningsOf r q.terms = [] := by
  rw [Query.warningsOf, List.filterMap_eq_nil_iff]
  intro t ht
  obtain ⟨e, he, hName, -⟩ := exists_of_mem_right (h.asksFor hQuery).2 ht
  rw [Query.warning?, hName, KeyMap.get?_eq_some_iff.mpr he]

/-- A record satisfies the query that is its printed form if and only if it meets itself. -/
theorem Readable.satisfiedBy_iff (h : r.Readable) (hQuery : Query.ofJson mode r.toJson = .ok q) :
    q.SatisfiedBy r ↔ r.MeetsItself mode := by
  obtain ⟨rfl, hTerms⟩ := h.asksFor hQuery
  -- every term is about a field, and every field is asked for by a term
  have hTerm : ∀ t ∈ q.terms, ∃ row, r.fields.get? t.1 = some row ∧
      (t.2.MetBy row ↔ row ≠ [.nested []]) := by
    intro t ht
    obtain ⟨e, he, hName, hAsks, -⟩ := exists_of_mem_right hTerms ht
    exact ⟨e.2, KeyMap.get?_eq_some_iff.mpr (hName ▸ he), hAsks.metBy_iff (h e he)⟩
  have hField : ∀ field row, r.fields.get? field = some row → ∃ t ∈ q.terms, t.1 = field ∧
      (t.2.MetBy row ↔ row ≠ [.nested []]) := by
    intro field row hRow
    have hMem := KeyMap.get?_eq_some_iff.mp hRow
    obtain ⟨t, ht, hName, hAsks, -⟩ := exists_of_mem_right hTerms.flip hMem
    exact ⟨t, ht, hName, hAsks.metBy_iff (h _ hMem)⟩
  unfold Query.SatisfiedBy MeetsItself
  cases q.mode with
  | and =>
    constructor
    · intro hSat field row hRow
      obtain ⟨t, ht, rfl, hMet⟩ := hField field row hRow
      exact hMet.mp (hSat t ht row hRow)
    · intro hRows t ht row hRow
      obtain ⟨row', hRow', hMet⟩ := hTerm t ht
      obtain rfl := Option.some.inj (hRow'.symm.trans hRow)
      exact hMet.mpr (hRows t.1 row' hRow)
  | or =>
    constructor
    · rintro ⟨t, ht, row, hRow, hSat⟩
      obtain ⟨row', hRow', hMet⟩ := hTerm t ht
      obtain rfl := Option.some.inj (hRow'.symm.trans hRow)
      exact ⟨t.1, row', hRow, hMet.mp hSat⟩
    · rintro ⟨field, row, hRow, hne⟩
      obtain ⟨t, ht, rfl, hMet⟩ := hField field row hRow
      exact ⟨t, ht, row, hRow, hMet.mpr hne⟩

end Record

/--
**A printed record selects itself.** Let a document be flattened into a record, and take the
printed record as a query, in either mode.

1. It is refused exactly for the first field, in key order, that has an empty group among several
   elements, and for no other reason.
2. It is a query exactly if there is no such field.
3. That query leaves no warning for the record. It is satisfied by the record, in `and` mode, if no
   row is a single empty group, in `or` mode, if some row is not; and then it collects the record's
   identifier from every list that has the record in it.
-/
theorem printed_selects_itself {d : Json} {path : String} {r : Record} (hDoc : d.Canonical)
    (h : flatten d path = .ok r) (mode : Mode) :
    (∀ why, Query.ofJson mode r.toJson = .error why ↔
        ∃ field, r.FirstEmptyGroup field ∧ why = .emptyGroup field) ∧
      ((∃ q, Query.ofJson mode r.toJson = .ok q) ↔
        ∀ field row, r.fields.get? field = some row → ¬ row.HasEmptyGroup) ∧
      ∀ q, Query.ofJson mode r.toJson = .ok q →
        (∀ sink, (q.evaluate r sink).2 = sink) ∧
        (∀ sink, (q.evaluate r sink).1 = true ↔ r.MeetsItself mode) ∧
        (r.MeetsItself mode → ∀ records, r ∈ records →
          r.identifier ∈ (q.collect records).ids) := by
  have hReadable : r.Readable := readable_of_flatten hDoc h
  refine ⟨fun _ => hReadable.ofJson_toJson_eq_error_iff, hReadable.exists_ofJson_toJson_iff,
    fun q hQuery => ⟨fun sink => ?_, fun sink => ?_, fun hMeets records hMem => ?_⟩⟩
  · -- the query names fields of the record only
    rw [Query.evaluate_eq, hReadable.warningsOf_eq_nil hQuery, List.append_nil]
  · rw [Query.evaluate_eq, Query.verdict_iff, hReadable.satisfiedBy_iff hQuery]
  · have hVerdict : Query.verdict q.mode r q.terms = true :=
      Query.verdict_iff.mpr ((hReadable.satisfiedBy_iff hQuery).mpr hMeets)
    exact Query.mem_collect_ids.mpr ⟨r, hMem, rfl, hVerdict⟩

/-- A record with several groups and, in another field, a single empty one. -/
theorem printed_selects_itself_despite_empty_list :
    let document : Json := .object
      [("gid", .number (.integer 7)),
       ("groups", .array [.array [.string "a"], .array [.bool true, .string "b"]]),
       ("none", .array [])]
    let record : Record :=
      { identifier := 7
        fields := KeyMap.ofList
          [("gid", [.scalar (.int 7)]),
           ("groups", [.nested [.text "a"], .nested [.bool true, .text "b"]]),
           ("none", [.nested []])]
        source := some "a.toml" }
    document.Canonical ∧ flatten document "a.toml" = .ok record ∧
      ∃ q, Query.ofJson .or record.toJson = .ok q ∧
        (∀ sink, (q.evaluate record sink).2 = sink) ∧
        ∀ records, record ∈ records → 7 ∈ (q.collect records).ids := by
  intro document record
  have hDoc : document.Canonical := by decide +kernel
  have hFlat : flatten document "a.toml" = .ok record := by rfl
  obtain ⟨-, -, hSelf⟩ := printed_selects_itself hDoc hFlat .or
  have hMeets : record.MeetsItself .or :=
    ⟨"gid", [.scalar (.int 7)], by rfl, by simp⟩
  obtain ⟨hSilent, -, hFound⟩ := hSelf _ rfl
  exact ⟨hDoc, hFlat, _, rfl, hSilent, hFound hMeets⟩

end FoodScan
