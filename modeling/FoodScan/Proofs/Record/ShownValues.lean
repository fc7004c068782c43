import FoodScan.Proofs.Json.Canonical
import FoodScan.Proofs.Record.Reading

/-!
# What a row keeps of the value it was read from

A row is shown as the value that it was read from, but for two things: integers beyond the signed
range have become doubles (`Json.widened`), and a list of nothing but one list is shown as that list
(`Json.unwrapped`). Since a shown row is read back as itself, this is all that a row loses.

* `Row.Reads.toJson_eq` — a row is shown as its value, after these two.
* `Row.Reads.eq_iff` — so values have the same row if and only if they are the same after these two.

Main result: `rows_keep_shown_values`.
-/

namespace FoodScan

-- ---------------------------------------------------------------------------
-- The two replacements
-- ---------------------------------------------------------------------------

namespace Json

/-- An integer that 64 signed bits do not hold, as the double that it is read as. -/
def Number.widened : Number → Number
  | .integer n => if n < 0x8000000000000000 then .integer n else .float (Binary64.ofInt n)
  | .float x => .float x

mutual

/-- Every integer beyond the signed range, however deep it stands, as the double that it is
read as. -/
def widened : Json → Json
  | .null => .null
  | .bool b => .bool b
  | .number n => .number n.widened
  | .string s => .string s
  | .array items => .array (widenedItems items)
  | .object members => .object (widenedMembers members)

def widenedItems : List Json → List Json
  | [] => []
  | v :: rest => v.widened :: widenedItems rest

def widenedMembers : List (String × Json) → List (String × Json)
  | [] => []
  | (key, v) :: rest => (key, v.widened) :: widenedMembers rest

end

/-- A list of nothing but one list as that list, and any other value as itself. -/
def unwrapped : Json → Json
  | .array [.array inner] => .array inner
  | v => v

theorem widened_array (items : List Json) : (array items).widened = .array (items.map widened) := by
  rw [widened]
  refine congrArg _ ?_
  induction items with
  | nil => rfl
  | cons v rest ih => rw [widenedItems, List.map_cons, ih]

theorem unwrapped_of_not_list {v : Json} (h : v.items? = none) : v.unwrapped = v := by
  cases v with
  | array items => cases h
  | _ => rfl

/-- A list is unwrapped only if it holds a single list. -/
theorem unwrapped_array {items : List Json} (h : ∀ inner, items ≠ [.array inner]) :
    (array items).unwrapped = .array items := by
  unfold unwrapped
  split
  · rename_i inner hItems
    exact absurd (array.inj hItems) (h inner)
  · rfl

theorem unwrapped_array_of_two_le {items : List Json} (h : 2 ≤ items.length) :
    (array items).unwrapped = .array items := by
  refine unwrapped_array fun inner hItems => ?_
  simp [hItems] at h

end Json

-- ---------------------------------------------------------------------------
-- Scalars
-- ---------------------------------------------------------------------------

/-- A scalar is written as the value that it was read from, widened. -/
theorem Scalar.toJson_of_ofJson? {v : Json} {s : Scalar} (hv : v.Canonical)
    (h : ofJson? v = some s) : s.toJson = v.widened := by
  have hFinite := isNonFinite_of_ofJson? hv h
  cases hv with
  | null | array | object => cases h
  | bool b => cases h; rfl
  | string t => cases h; rfl
  | @number n hRange =>
    cases n with
    | float x =>
      cases h
      rw [isNonFinite, Bool.not_eq_false'] at hFinite
      rw [toJson, if_pos hFinite, Json.widened, Json.Number.widened]
    | integer n =>
      have hLow : -0x8000000000000000 ≤ n := hRange.1
      rw [Json.widened, Json.Number.widened]
      cases hInt : int64? n with
      | some m =>
        rw [ofJson?, hInt] at h
        cases h
        have hm : m.toInt = n := int64?_eq_some_iff.mp hInt
        have hHigh := m.toInt_lt
        rw [toJson, hm, if_pos (by omega)]
      -- an integer beyond the signed range has become a double, which is what widening makes of it
      | none =>
        rw [ofJson?, hInt] at h
        cases h
        have hHigh : 0x8000000000000000 ≤ n := (int64?_eq_none_iff.mp hInt).resolve_left (by omega)
        rw [isNonFinite, Bool.not_eq_false'] at hFinite
        rw [toJson, if_pos hFinite, if_neg (by omega)]

/-- Scalars are shown as the items they were read from, up to widening of integers. -/
theorem ScalarsRead.map_toJson {items : List Json} {scalars : List Scalar}
    (h : ScalarsRead items scalars) (hItems : ∀ v ∈ items, v.Canonical) :
    scalars.map Scalar.toJson = items.map Json.widened := by
  induction h with
  | nil => rfl
  | cons hHead _ ih =>
    obtain ⟨hCanonical, hRest⟩ := List.forall_mem_cons.mp hItems
    rw [List.map_cons, List.map_cons, Scalar.toJson_of_ofJson? hCanonical hHead, ih hRest]

-- ---------------------------------------------------------------------------
-- Rows
-- ---------------------------------------------------------------------------

namespace Row

variable {v w : Json} {row row' : Row}

/-- A value is read as one row at most. -/
theorem Reads.unique (h : Reads v row) (h' : Reads v row') : row = row' := by
  have hOk := ofJson_eq_ok_iff.mpr h
  rw [ofJson_eq_ok_iff.mpr h'] at hOk
  exact (Except.ok.inj hOk).symm

/-- Groups are shown as the lists they were read from, up to the same widening. -/
theorem map_toJson_groups {inners : List (List Json)} {groups : List (List Scalar)}
    (hv : (Json.array (inners.map .array)).Canonical)
    (h : List.Forall₂ ScalarsRead inners groups) :
    groups.map (List.map Scalar.toJson) = inners.map (List.map Json.widened) := by
  have hItems : ∀ inner ∈ inners, ∀ v ∈ inner, v.Canonical := by
    intro inner hInner
    cases hv with
    | array hLists =>
      cases hLists _ (List.mem_map_of_mem hInner) with
      | array hInnerItems => exact hInnerItems
  clear hv
  induction h with
  | nil => rfl
  | cons hHead _ ih =>
    obtain ⟨hFirst, hRest⟩ := List.forall_mem_cons.mp hItems
    rw [List.map_cons, List.map_cons, hHead.map_toJson hFirst, ih hRest]

theorem widened_lists (inners : List (List Json)) :
    (Json.array (inners.map .array)).widened =
      .array ((inners.map (List.map Json.widened)).map .array) := by
  rw [Json.widened_array, List.map_map, List.map_map]
  exact congrArg _ (List.map_congr_left fun inner _ => Json.widened_array inner)

/-- **Shown as its value.** What is read as a row is what the row is shown as, but for the two
replacements. -/
theorem Reads.toJson_eq (hv : v.Canonical) (h : Reads v row) :
    Row.toJson row = v.widened.unwrapped := by
  cases h with
  | @scalar _ s hScalar =>
    have hShown : s.toJson = v.widened := Scalar.toJson_of_ofJson? hv hScalar
    rw [← hShown, Json.unwrapped_of_not_list (Scalar.items?_toJson s)]
    rfl
  | @list items scalars hScalars =>
    cases hv with
    | array hItems =>
      rw [Json.widened_array, ← hScalars.map_toJson hItems, Json.unwrapped_array]
      · rfl
      · -- scalars are shown as no lists, so there is nothing to unwrap
        intro inner hSingle
        have hMem : Json.array inner ∈ scalars.map Scalar.toJson := hSingle ▸ List.mem_cons_self
        obtain ⟨s, -, hs⟩ := List.mem_map.mp hMem
        have hNone := Scalar.items?_toJson s
        rw [hs] at hNone
        cases hNone
  | @lists inners groups hne hGroups =>
    rw [widened_lists, ← map_toJson_groups hv hGroups]
    match groups, hGroups with
    | [], hGroups => exact absurd (List.forall₂_nil_right_iff.mp hGroups) hne
    | [group], _ => rfl
    | first :: second :: rest, _ =>
      rw [toJson_groups (by simp), Json.unwrapped_array_of_two_le (by simp)]

/-- **The same row.** Values are read as the same row if and only if the two replacements make them
the same value. -/
theorem Reads.eq_iff (hv : v.Canonical) (hw : w.Canonical) (h : Reads v row) (h' : Reads w row') :
    row = row' ↔ v.widened.unwrapped = w.widened.unwrapped := by
  rw [← h.toJson_eq hv, ← h'.toJson_eq hw]
  refine ⟨fun hRow => congrArg Row.toJson hRow, fun hShown => ?_⟩
  -- a shown row is read back as itself
  have hBack := (h.readable hv).reads
  rw [hShown] at hBack
  exact hBack.unique (h'.readable hw).reads

/-- What is read as several elements is a list of lists. -/
theorem Reads.exists_lists (h : Reads v row) (hLength : 2 ≤ row.length) :
    ∃ inners : List (List Json), v = .array (inners.map .array) ∧ inners.length = row.length := by
  cases h with
  | scalar _ => simp at hLength
  | list _ => simp at hLength
  | @lists inners groups _ hGroups => exact ⟨inners, rfl, by simpa using hGroups.length_eq⟩

/-- Whatever has the row of several inner lists is a list of as many, and these have the same items
in the same order. -/
theorem Reads.exists_same_lists {inners : List (List Json)} (hLength : 2 ≤ inners.length)
    (hv : (Json.array (inners.map .array)).Canonical) (hw : w.Canonical)
    (h : Reads (.array (inners.map .array)) row) (h' : Reads w row) :
    ∃ inners' : List (List Json), w = .array (inners'.map .array) ∧
      inners'.map (List.map Json.widened) = inners.map (List.map Json.widened) := by
  have hShown := (h.eq_iff hv hw h').mp rfl
  -- two lists make two groups, so both values are shown as lists of several
  have hRow : inners.length = row.length := by
    generalize hValue : Json.array (inners.map .array) = v at h
    cases h with
    | scalar hScalar => rw [← hValue] at hScalar; cases hScalar
    | list hScalars =>
      refine absurd (Json.array.inj hValue).symm (hScalars.ne_lists inners ?_)
      rintro rfl
      simp at hLength
    | lists _ hGroups =>
      have hSame := congrArg List.length (Json.array.inj hValue)
      simpa [hGroups.length_eq] using hSame
  obtain ⟨inners', rfl, hLength'⟩ := h'.exists_lists (by omega)
  refine ⟨inners', rfl, ?_⟩
  rw [widened_lists, widened_lists, Json.unwrapped_array_of_two_le (by simpa using hLength),
    Json.unwrapped_array_of_two_le (by simp; omega)] at hShown
  have hInjective : Function.Injective (List.map Json.array) :=
    List.map_injective_iff.mpr fun _ _ => Json.array.inj
  exact (hInjective (Json.array.inj hShown)).symm

/-- No list has the row of a value that is none. -/
theorem Reads.ne_of_not_list {items : List Json} (hv : v.items? = none) (h : Reads v row)
    (h' : Reads (.array items) row') : row ≠ row' := by
  cases h with
  | @scalar _ s _ =>
    intro hRow
    cases h' with
    -- a list is no scalar; one list gives a nested element, and several lists give only such
    | scalar hScalar => cases hScalar
    | list _ => cases hRow
    | @lists inners groups _ _ =>
      have hMem : RowElement.scalar s ∈ groups.map RowElement.nested := hRow ▸ List.mem_cons_self
      obtain ⟨group, -, hGroup⟩ := List.mem_map.mp hMem
      cases hGroup
  | list _ => cases hv
  | lists _ _ => cases hv

end Row

-- ---------------------------------------------------------------------------
-- What is lost and what is not
-- ---------------------------------------------------------------------------

/-- A field is shown as its row is. -/
theorem Record.lookup_toJson {r : Record} {field : String} {row : Row}
    (h : r.fields.get? field = some row) :
    ∃ members, r.toJson = .object members ∧ members.lookup field = some (Row.toJson row) := by
  have hRow : r.fields.entries.lookup field = some row := h
  exact ⟨_, rfl, by rw [Entries.lookup_map, hRow]; rfl⟩

/--
**What a row keeps of its value.** Let two values, canonical as all that are read are
(`Json.read_canonical`), be accepted as rows.

1. The row, and so every field of every record that has it, is shown as the value itself, but for
   integers beyond the signed range, which are shown as the doubles that they are read as, and for a
   list of nothing but one list, which is shown as that list.
2. The two rows are the same, floats bit for bit, if and only if these two replacements make the
   values the same.
3. So nothing is lost of two or more inner lists: only lists of as many lists, with the same items
   in the same order after the replacement, have the same row.
4. And no list, of one item or of more, has the row of a scalar.
-/
theorem rows_keep_shown_values {v w : Json} {row row' : Row} (hv : v.Canonical) (hw : w.Canonical)
    (h : Row.ofJson v = .ok row) (h' : Row.ofJson w = .ok row') :
    (Row.toJson row = v.widened.unwrapped ∧
      ∀ (r : Record) (field : String), r.fields.get? field = some row →
        ∃ members, r.toJson = .object members ∧
          members.lookup field = some v.widened.unwrapped) ∧
    (row = row' ↔ v.widened.unwrapped = w.widened.unwrapped) ∧
    (∀ inners : List (List Json), v = .array (inners.map .array) → 2 ≤ inners.length →
      row = row' → ∃ inners' : List (List Json), w = .array (inners'.map .array) ∧
        inners'.map (List.map Json.widened) = inners.map (List.map Json.widened)) ∧
    (v.items? = none → ∀ items, w = .array items → row ≠ row') := by
  have hReads := Row.ofJson_eq_ok_iff.mp h
  have hReads' := Row.ofJson_eq_ok_iff.mp h'
  have hShown := hReads.toJson_eq hv
  refine ⟨⟨hShown, fun r field hRow => ?_⟩, hReads.eq_iff hv hw hReads', ?_, ?_⟩
  · rw [← hShown]
    exact Record.lookup_toJson hRow
  · rintro inners rfl hLength rfl
    exact hReads.exists_same_lists hLength hv hw hReads'
  · rintro hNone items rfl
    exact hReads.ne_of_not_list hNone hReads'

/-- A list of one list, with an integer that becomes a double, has the row of that list; two lists
do not have the row of the same two the other way round, nor a scalar that of the list of it. -/
theorem rows_keep_shown_values_of_wrapped_list :
    let large : Json := .number (.integer 0x8000000000000000)
    let double : Json := .number (.float (.ofInt 0x8000000000000000))
    let wrapped : Json := .array [.array [large, .string "a"]]
    let plain : Json := .array [double, .string "a"]
    let lists : Json := .array [.array [.string "a"], .array []]
    let swapped : Json := .array [.array [], .array [.string "a"]]
    (∃ row, Row.ofJson wrapped = .ok row ∧ Row.ofJson plain = .ok row ∧ Row.toJson row = plain) ∧
      Row.ofJson lists ≠ Row.ofJson swapped ∧
      Row.ofJson (.string "a") ≠ Row.ofJson (.array [.string "a"]) := by
  intro large double wrapped plain lists swapped
  have hWrapped : wrapped.Canonical := by decide +kernel
  have hPlain : plain.Canonical := by decide +kernel
  have hLists : lists.Canonical := by decide +kernel
  have hSwapped : swapped.Canonical := by decide +kernel
  have hText : (Json.string "a").Canonical := .string "a"
  have hSingle : (Json.array [.string "a"]).Canonical := by decide +kernel
  refine ⟨⟨_, rfl, ?_, ?_⟩, ?_, ?_⟩
  · obtain ⟨-, hSame, -⟩ := rows_keep_shown_values hWrapped hPlain rfl rfl
    exact congrArg Except.ok (hSame.mpr rfl).symm
  · exact (rows_keep_shown_values hWrapped hPlain rfl rfl).1.1
  · -- the order of groups is kept
    obtain ⟨-, hSame, -⟩ := rows_keep_shown_values hLists hSwapped rfl rfl
    intro hRow
    have hShown : lists = swapped := hSame.mp (Except.ok.inj hRow)
    simp [lists, swapped] at hShown
  · obtain ⟨-, -, -, hScalar⟩ := rows_keep_shown_values hText hSingle rfl rfl
    exact fun hRow => hScalar rfl _ rfl (Except.ok.inj hRow)

end FoodScan
