import FoodScan.Proofs.Record.Reading

/-!
# Values without a row

`Row.Fits` is the grammar of the values that have a row, and `Row.Refused` says what is wrong with a
value that has none, with one rule for each of the three ways in which that can be: it is neither a
scalar nor a list, a list of lists goes wrong, or any other list does. The first item that is no
scalar counts; for that, a list of lists is read as one list of all their items.

* `Row.fits_or_refused` — a value has a row, or there is something wrong with it.
* `Row.fits_iff` and `Row.ofJson_eq_error_iff` — a value is accepted in the one case, and refused
  for what is wrong with it in the other.
-/

namespace FoodScan

-- ---------------------------------------------------------------------------
-- Scalars and lists of scalars
-- ---------------------------------------------------------------------------

namespace Json

/-- Whether a value is a boolean, a number or a text. -/
def isScalar (v : Json) : Bool :=
  match v.kind with
  | .boolean | .number | .string => true
  | .null | .list | .object => false

/-- The first item of a list that is no scalar. -/
def firstNonScalar? (items : List Json) : Option Json := items.find? fun v => !v.isScalar

/-- Every boolean, number and text is read as a scalar, and nothing else is. -/
theorem exists_ofJson?_iff {v : Json} : (∃ s, Scalar.ofJson? v = some s) ↔ v.isScalar = true := by
  cases v with
  | number n =>
    cases n with
    | integer i => cases hInt : int64? i <;> simp [Scalar.ofJson?, isScalar, kind, hInt]
    | float x => simp [Scalar.ofJson?, isScalar, kind]
  | _ => simp [Scalar.ofJson?, isScalar, kind]

theorem ofJson?_eq_none_iff {v : Json} : Scalar.ofJson? v = none ↔ v.isScalar = false := by
  rw [← Bool.not_eq_true, ← exists_ofJson?_iff]
  cases Scalar.ofJson? v <;> simp

theorem firstNonScalar?_eq_none_iff {items : List Json} :
    firstNonScalar? items = none ↔ ∀ v ∈ items, v.isScalar = true := by
  simp [firstNonScalar?]

end Json

/-- Items are refused by the kind of the first that is no scalar. -/
theorem scalarsOf_eq_error_iff {items : List Json} {kind : Json.Kind} :
    scalarsOf items = .error kind ↔
      ∃ x, Json.firstNonScalar? items = some x ∧ x.kind = kind := by
  rw [scalarsOf]
  induction items with
  | nil => simp [Json.firstNonScalar?, pure, Except.pure]
  | cons v rest ih =>
    rw [mapM_cons_eq_error_iff, ih]
    cases hScalar : v.isScalar with
    | true =>
      obtain ⟨s, hs⟩ := Json.exists_ofJson?_iff.mpr hScalar
      simp [Json.firstNonScalar?, hScalar, hs]
    | false => simp [Json.firstNonScalar?, hScalar, Json.ofJson?_eq_none_iff.mpr hScalar]

-- ---------------------------------------------------------------------------
-- Values without a row
-- ---------------------------------------------------------------------------

namespace Row

/-- The values that have a row. -/
inductive Fits : Json → Prop
  | scalar {v : Json} (h : v.isScalar = true) : Fits v
  /-- A list of scalars may be empty. -/
  | list {items : List Json} (h : ∀ x ∈ items, x.isScalar = true) : Fits (.array items)
  | lists {inners : List (List Json)} (hne : inners ≠ [])
      (h : ∀ inner ∈ inners, ∀ x ∈ inner, x.isScalar = true) : Fits (.array (inners.map .array))

/-- What is wrong with a value that has no row. -/
inductive Refused : Json → Unsupported → Prop
  | found {v : Json} (h : v.kind = .null ∨ v.kind = .object) : Refused v (.found v.kind)
  /-- All items are lists, and the first item of these that is no scalar counts. -/
  | lists {inners : List (List Json)} {x : Json} (hne : inners ≠ [])
      (h : Json.firstNonScalar? inners.flatten = some x) :
      Refused (.array (inners.map .array)) (.nestedListContains x.kind)
  /-- Not all items are lists, and the first item that is no scalar counts. -/
  | list {items : List Json} {x : Json} (hMixed : ∃ v ∈ items, v.kind ≠ .list)
      (h : Json.firstNonScalar? items = some x) : Refused (.array items) (.listContains x.kind)

theorem scalarsRead_iff {items : List Json} :
    (∃ scalars, ScalarsRead items scalars) ↔ ∀ x ∈ items, x.isScalar = true := by
  constructor
  · rintro ⟨scalars, h⟩ x hx
    obtain ⟨s, -, hs⟩ := exists_of_mem_right h.flip hx
    exact Json.exists_ofJson?_iff.mp ⟨s, hs⟩
  · intro h
    exact exists_forall₂ fun x hx => Json.exists_ofJson?_iff.mpr (h x hx)

theorem fits_iff {v : Json} : Fits v ↔ ∃ row, Row.ofJson v = .ok row := by
  simp only [ofJson_eq_ok_iff]
  constructor
  · rintro (h | h | ⟨hne, h⟩)
    · obtain ⟨s, hs⟩ := Json.exists_ofJson?_iff.mpr h
      exact ⟨_, .scalar hs⟩
    · obtain ⟨scalars, hScalars⟩ := scalarsRead_iff.mpr h
      exact ⟨_, .list hScalars⟩
    · obtain ⟨groups, hGroups⟩ := exists_forall₂ fun inner hInner =>
        scalarsRead_iff.mpr (h inner hInner)
      exact ⟨_, .lists hne hGroups⟩
  · rintro ⟨row, hs | hScalars | ⟨hne, hGroups⟩⟩
    · exact .scalar (Json.exists_ofJson?_iff.mp ⟨_, hs⟩)
    · exact .list (scalarsRead_iff.mp ⟨_, hScalars⟩)
    · refine .lists hne fun inner hInner => ?_
      obtain ⟨group, -, hGroup⟩ := exists_of_mem_right hGroups.flip hInner
      exact scalarsRead_iff.mp ⟨group, hGroup⟩

/-- Lists that are read one by one are read like one list. -/
theorem mapM_nested_eq_error_iff {inners : List (List Json)} {why : Unsupported} :
    (inners.mapM fun inner =>
        match scalarsOf inner with
        | .ok scalars => Except.ok (RowElement.nested scalars)
        | .error kind => Except.error (Unsupported.nestedListContains kind)) = .error why ↔
      ∃ x, Json.firstNonScalar? inners.flatten = some x ∧ .nestedListContains x.kind = why := by
  induction inners with
  | nil => simp [Json.firstNonScalar?, pure, Except.pure]
  | cons inner rest ih =>
    have hFlatten : Json.firstNonScalar? (inner :: rest).flatten =
        (Json.firstNonScalar? inner).or (Json.firstNonScalar? rest.flatten) := List.find?_append
    rw [mapM_cons_eq_error_iff, ih, hFlatten]
    -- the first list with an offender decides, and in it the first offender
    cases hInner : scalarsOf inner with
    | ok scalars =>
      have hNone : Json.firstNonScalar? inner = none :=
        Json.firstNonScalar?_eq_none_iff.mpr
          (scalarsRead_iff.mp ⟨scalars, scalarsOf_eq_ok_iff.mp hInner⟩)
      simp [hNone]
    | error kind =>
      obtain ⟨x, hx, rfl⟩ := scalarsOf_eq_error_iff.mp hInner
      simp [hx]

/-- A list with an item that is no list is no list of lists. -/
theorem not_lists_of_mixed {items : List Json} (hMixed : ∃ v ∈ items, v.kind ≠ .list)
    (inners : List (List Json)) : items ≠ inners.map .array := by
  rintro rfl
  obtain ⟨v, hv, hKind⟩ := hMixed
  obtain ⟨inner, -, rfl⟩ := List.mem_map.mp hv
  exact hKind rfl

/-- The items of a list are not all lists, or they are the lists of some items. -/
theorem mixed_or_lists (items : List Json) :
    (∃ v ∈ items, v.kind ≠ .list) ∨ ∃ inners : List (List Json), items = inners.map .array := by
  induction items with
  | nil => exact .inr ⟨[], rfl⟩
  | cons v rest ih =>
    cases v with
    | array inner =>
      rcases ih with ⟨w, hw, hKind⟩ | ⟨inners, rfl⟩
      · exact .inl ⟨w, List.mem_cons_of_mem _ hw, hKind⟩
      · exact .inr ⟨inner :: inners, rfl⟩
    | _ => exact .inl ⟨_, List.mem_cons_self, nofun⟩

/-- What is wrong with a value is what it is refused for. -/
theorem Refused.ofJson_eq {v : Json} {why : Unsupported} (h : Refused v why) :
    Row.ofJson v = .error why := by
  cases h with
  | found hKind =>
    cases v with
    | null => rfl
    | object members => rfl
    | _ => rcases hKind with hKind | hKind <;> cases hKind
  | @lists inners x hne hx =>
    obtain ⟨first, rest, rfl⟩ := List.exists_cons_of_ne_nil hne
    simp only [Row.ofJson]
    rw [mapM_items?_eq_some_iff.mpr rfl]
    exact mapM_nested_eq_error_iff.mpr ⟨x, hx, rfl⟩
  | @list items x hMixed hx =>
    have hScalars : scalarsOf items = .error x.kind := scalarsOf_eq_error_iff.mpr ⟨x, hx, rfl⟩
    simp only [Row.ofJson]
    split
    · -- with an item that is no list, the list is not read as one of lists
      rename_i first rest hLists
      exact absurd (mapM_items?_eq_some_iff.mp hLists) (not_lists_of_mixed hMixed _)
    · rw [hScalars]

/-- A value has a row, or there is something wrong with it. -/
theorem fits_or_refused (v : Json) : Fits v ∨ ∃ why, Refused v why := by
  cases v with
  | null => exact .inr ⟨_, .found (.inl rfl)⟩
  | object members => exact .inr ⟨_, .found (.inr rfl)⟩
  | array items =>
    -- the two shapes are searched for offenders in different places
    rcases mixed_or_lists items with hMixed | ⟨inners, rfl⟩
    · cases hFirst : Json.firstNonScalar? items with
      | none => exact .inl (.list (Json.firstNonScalar?_eq_none_iff.mp hFirst))
      | some x => exact .inr ⟨_, .list hMixed hFirst⟩
    · by_cases hne : inners = []
      · subst hne
        exact .inl (.list (by simp))
      · cases hFirst : Json.firstNonScalar? inners.flatten with
        | none =>
          refine .inl (.lists hne fun inner hInner x hx => ?_)
          have hMem : x ∈ inners.flatten := List.mem_flatten.mpr ⟨inner, hInner, hx⟩
          exact Json.firstNonScalar?_eq_none_iff.mp hFirst x hMem
        | some x => exact .inr ⟨_, .lists hne hFirst⟩
  | _ => exact .inl (.scalar rfl)

/-- **Values.** A value is refused for what is wrong with it. -/
theorem ofJson_eq_error_iff {v : Json} {why : Unsupported} :
    Row.ofJson v = .error why ↔ Refused v why := by
  refine ⟨fun h => ?_, Refused.ofJson_eq⟩
  rcases fits_or_refused v with hFits | ⟨why', hRefused⟩
  · obtain ⟨row, hRow⟩ := fits_iff.mp hFits
    rw [hRow] at h
    cases h
  · rw [hRefused.ofJson_eq] at h
    cases h
    exact hRefused

end Row

end FoodScan
