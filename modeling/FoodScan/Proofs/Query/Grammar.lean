import FoodScan.Proofs.Query.Reading
import FoodScan.Proofs.Record.Refusal

/-!
# Criteria that are refused

`Criterion.Fits` is the grammar of the values that are criteria. A value outside of it may offend in
several places. A place is the list of the item numbers that lead there, and the places of a value
are read in the order of these lists, so "the first offender" is one notion for the list of
alternatives and for the groups in it:

* `GroupItem.Offends`, `Alternative.Offends`, `Criterion.Offends` — what offends, where, and which
  error that is.
* `First` — the error of the place that is read first.
* `Finds` — how a check ends: well if nothing offends, and with the error of the first offender
  otherwise. `finds_mapM` carries that from the items to a list.

Main result: `Criterion.accepts_grammar_or_first_offender`.
-/

namespace FoodScan

-- ---------------------------------------------------------------------------
-- Offenders in reading order
-- ---------------------------------------------------------------------------

section Places

variable {β γ ε : Type}

/-- Something offends in an item of a list: the place is the number of the item, then where in the
item. -/
inductive InItems (offends : Json → List Nat → ε → Prop) (items : List Json) :
    List Nat → ε → Prop
  | intro {i : Nat} {x : Json} {place : List Nat} {why : ε} (hx : items[i]? = some x)
      (h : offends x place why) : InItems offends items (i :: place) why

/-- The error of the place that is read first. -/
def First (offends : List Nat → ε → Prop) (why : ε) : Prop :=
  ∃ place, offends place why ∧
    ∀ place' why', offends place' why' → place' = place ∧ why' = why ∨ place < place'

/-- A check ends well if nothing offends, and with the error of the first offender otherwise. -/
def Finds (offends : List Nat → ε → Prop) : Except ε β → Prop
  | .ok _ => ∀ place why, ¬ offends place why
  | .error why => First offends why

/-- There is only one first offence, since places are compared in a total order. -/
theorem First.unique {offends : List Nat → ε → Prop} {why why' : ε} (h : First offends why)
    (h' : First offends why') : why = why' := by
  obtain ⟨place, hOffends, hFirst⟩ := h
  obtain ⟨place', hOffends', hFirst'⟩ := h'
  rcases hFirst place' why' hOffends' with ⟨-, rfl⟩ | hLt
  · rfl
  · rcases hFirst' place why hOffends with ⟨-, rfl⟩ | hGt
    · rfl
    · exact absurd hGt (List.lt_asymm hLt)

namespace Finds

variable {offends : List Nat → ε → Prop} {result : Except ε β}

/-- A check that finds the first offence fails with exactly that. -/
theorem eq_error_iff (h : Finds offends result) {why : ε} :
    result = .error why ↔ First offends why := by
  cases result with
  | ok b =>
    refine ⟨nofun, fun ⟨place, hOffends, _⟩ => ?_⟩
    exact absurd hOffends (h place why)
  | error why' =>
    refine ⟨?_, fun hFirst => by rw [First.unique h hFirst]⟩
    rintro ⟨⟩
    exact h

theorem map (h : Finds offends result) (g : β → γ) : Finds offends (result.map g) := by
  cases result <;> exact h

theorem congr {offends' : List Nat → ε → Prop} (h : Finds offends result)
    (hIff : ∀ place why, offends' place why ↔ offends place why) : Finds offends' result := by
  obtain rfl : offends' = offends := by
    funext place why
    exact propext (hIff place why)
  exact h

end Finds

theorem inItems_nil {offends : Json → List Nat → ε → Prop} {place : List Nat} {why : ε} :
    ¬ InItems offends [] place why := by
  rintro ⟨hx, -⟩
  simp at hx

/-- An offence among items is in the first one, or among the rest one place later. -/
theorem inItems_cons_iff {offends : Json → List Nat → ε → Prop} {x : Json} {rest : List Json}
    {place : List Nat} {why : ε} :
    InItems offends (x :: rest) place why ↔
      (∃ inner, place = 0 :: inner ∧ offends x inner why) ∨
      ∃ i inner, place = (i + 1) :: inner ∧ InItems offends rest (i :: inner) why := by
  constructor
  · rintro @⟨i, y, inner, _, hy, h⟩
    cases i with
    | zero =>
      cases hy
      exact .inl ⟨inner, rfl, h⟩
    | succ i => exact .inr ⟨i, inner, rfl, .intro hy h⟩
  · rintro (⟨inner, rfl, h⟩ | ⟨i, inner, rfl, @⟨_, y, _, _, hy, h⟩⟩)
    · exact .intro rfl h
    · exact .intro hy h

/-- A list is read item by item, so its first offender is the first one of its first item that has
one. -/
theorem finds_mapM {f : Json → Except ε β} {offends : Json → List Nat → ε → Prop}
    (hf : ∀ x, Finds (offends x) (f x)) (items : List Json) :
    Finds (InItems offends items) (items.mapM f) := by
  induction items with
  | nil => exact fun place why => inItems_nil
  | cons x rest ih =>
    have hHead := hf x
    rw [List.mapM_cons]
    cases hx : f x with
    | error why =>
      rw [hx] at hHead
      obtain ⟨place, hOffends, hFirst⟩ := hHead
      -- the first item offends, and every place in it comes before those of the rest
      refine ⟨0 :: place, .intro rfl hOffends, fun place' why' h => ?_⟩
      rcases inItems_cons_iff.mp h with ⟨inner, rfl, hInner⟩ | ⟨i, inner, rfl, -⟩
      · rcases hFirst inner why' hInner with ⟨rfl, rfl⟩ | hLt
        · exact .inl ⟨rfl, rfl⟩
        · exact .inr (List.cons_lt_cons_iff.mpr (.inr ⟨rfl, hLt⟩))
      · exact .inr (List.cons_lt_cons_iff.mpr (.inl i.succ_pos))
    | ok b =>
      rw [hx] at hHead
      cases hRest : rest.mapM f with
      | ok bs =>
        rw [hRest] at ih
        intro place why h
        rcases inItems_cons_iff.mp h with ⟨inner, -, hInner⟩ | ⟨i, inner, -, hInner⟩
        · exact hHead inner why hInner
        · exact ih _ why hInner
      | error why =>
        rw [hRest] at ih
        obtain ⟨_, @⟨i, y, inner, _, hy, hOffends⟩, hFirst⟩ := ih
        -- it is fine, so the first place of the rest is only moved one item on
        refine ⟨(i + 1) :: inner, .intro hy hOffends, fun place' why' h => ?_⟩
        rcases inItems_cons_iff.mp h with ⟨inner', -, hInner'⟩ | ⟨j, inner', rfl, hInner'⟩
        · exact absurd hInner' (hHead inner' why')
        · rcases hFirst _ why' hInner' with ⟨hPlace, rfl⟩ | hLt
          · obtain ⟨rfl, rfl⟩ := List.cons.inj hPlace
            exact .inl ⟨rfl, rfl⟩
          · rcases List.cons_lt_cons_iff.mp hLt with hIndex | ⟨rfl, hInner⟩
            · exact .inr (List.cons_lt_cons_iff.mpr (.inl (Nat.succ_lt_succ hIndex)))
            · exact .inr (List.cons_lt_cons_iff.mpr (.inr ⟨rfl, hInner⟩))

end Places

-- ---------------------------------------------------------------------------
-- Scalars
-- ---------------------------------------------------------------------------

/-- A value that is no list offends where it stands, or it is a scalar. -/
theorem finds_scalarFor {field : String} {v : Json} (hv : v.items? = none)
    {offends : List Nat → QueryError → Prop}
    (hOffends : ∀ place why, offends place why ↔
      (v.kind = .null ∨ v.kind = .object) ∧ place = [] ∧ why = .invalidValue field v.kind) :
    Finds offends (scalarFor field v) := by
  -- what is no list and no scalar is `null` or an object
  have hKinds : (v.kind = .null ∨ v.kind = .object) ↔ v.isScalar = false := by
    cases v with
    | array items => cases hv
    | _ => simp [Json.kind, Json.isScalar]
  rw [scalarFor]
  cases hScalar : Scalar.ofJson? v with
  | some s =>
    intro place why h
    rw [hOffends, hKinds, ← Json.ofJson?_eq_none_iff, hScalar] at h
    cases h.1
  | none =>
    have hBad := hKinds.mpr (Json.ofJson?_eq_none_iff.mp hScalar)
    refine ⟨[], (hOffends _ _).mpr ⟨hBad, rfl, rfl⟩, fun place why h => .inl ?_⟩
    exact ((hOffends place why).mp h).2

/-- What offends in an item of a group. -/
inductive GroupItem.Offends (field : String) : Json → List Nat → QueryError → Prop
  | value {v : Json} (h : v.kind = .null ∨ v.kind = .object) :
      Offends field v [] (.invalidValue field v.kind)
  /-- A list is one level too deep, whatever its items are. -/
  | tooDeep {items : List Json} : Offends field (.array items) [] (.tooDeep field)

/-- An item of a group that is no list is read as a scalar. -/
theorem groupItem_of_not_list {field : String} {v : Json} (hv : v.items? = none) :
    groupItem field v = scalarFor field v := by
  cases v with
  | array items => cases hv
  | _ => rfl

/-- Reading an item of a group finds its first offence. -/
theorem finds_groupItem (field : String) (v : Json) :
    Finds (GroupItem.Offends field v) (groupItem field v) := by
  cases hItems : v.items? with
  | some items =>
    obtain rfl := Scalar.eq_array_of_items? hItems
    refine ⟨[], .tooDeep, ?_⟩
    rintro place why (h | -)
    · rcases h with h | h <;> cases h
    · exact .inl ⟨rfl, rfl⟩
  | none =>
    rw [groupItem_of_not_list hItems]
    refine finds_scalarFor hItems fun place why => ⟨?_, ?_⟩
    · rintro (h | -)
      · exact ⟨h, rfl, rfl⟩
      · cases hItems
    · rintro ⟨h, rfl, rfl⟩
      exact .value h

-- ---------------------------------------------------------------------------
-- Alternatives
-- ---------------------------------------------------------------------------

namespace Alternative

/-- The values that are alternatives. -/
inductive Fits : Json → Prop
  | scalar {v : Json} (h : v.isScalar = true) : Fits v
  | group {items : List Json} (hne : items ≠ []) (h : ∀ x ∈ items, x.isScalar = true) :
      Fits (.array items)

/-- What offends in an item of a list of alternatives. -/
inductive Offends (field : String) : Json → List Nat → QueryError → Prop
  | value {v : Json} (h : v.kind = .null ∨ v.kind = .object) :
      Offends field v [] (.invalidValue field v.kind)
  | emptyGroup : Offends field (.array []) [] (.emptyGroup field)
  | member {items : List Json} {place : List Nat} {why : QueryError}
      (h : InItems (GroupItem.Offends field) items place why) :
      Offends field (.array items) place why

/-- Reading succeeds on exactly the values that fit. -/
theorem exists_ofJson_iff {field : String} {v : Json} :
    (∃ a, Alternative.ofJson field v = .ok a) ↔ Fits v := by
  simp only [ofJson_eq_ok_iff]
  constructor
  · rintro ⟨a, hScalar | @⟨items, group, hRead⟩⟩
    · exact .scalar (Json.exists_ofJson?_iff.mp ⟨_, hScalar⟩)
    · refine .group ?_ (Row.scalarsRead_iff.mp ⟨_, hRead⟩)
      rintro rfl
      exact group.nonempty (List.forall₂_nil_left_iff.mp hRead)
  · rintro (h | ⟨hne, h⟩)
    · obtain ⟨s, hs⟩ := Json.exists_ofJson?_iff.mpr h
      exact ⟨_, .one hs⟩
    · obtain ⟨scalars, hScalars⟩ := Row.scalarsRead_iff.mpr h
      have hne' : scalars ≠ [] := by
        rintro rfl
        exact hne (List.forall₂_nil_right_iff.mp hScalars)
      exact ⟨.all ⟨scalars, hne'⟩, .all hScalars⟩

/-- A group is found empty only after its members have been read, but then it has none. -/
theorem finds_ofJson (field : String) (v : Json) :
    Finds (Offends field v) (Alternative.ofJson field v) := by
  cases hItems : v.items? with
  | none =>
    rw [ofJson_of_not_list hItems]
    refine (finds_scalarFor hItems fun place why => ⟨?_, ?_⟩).map Alternative.one
    · rintro (h | - | -)
      · exact ⟨h, rfl, rfl⟩
      · cases hItems
      · cases hItems
    · rintro ⟨h, rfl, rfl⟩
      exact .value h
  | some items =>
    obtain rfl := Scalar.eq_array_of_items? hItems
    cases items with
    | nil =>
      refine ⟨[], .emptyGroup, ?_⟩
      rintro place why (h | - | h)
      · rcases h with h | h <;> cases h
      · exact .inl ⟨rfl, rfl⟩
      · exact absurd h inItems_nil
    | cons x rest =>
      have hMembers := finds_mapM (finds_groupItem field) (x :: rest)
      -- a list that is not empty offends in its members only
      have hOffends : ∀ place why, Offends field (.array (x :: rest)) place why ↔
          InItems (GroupItem.Offends field) (x :: rest) place why := by
        refine fun place why => ⟨?_, .member⟩
        rintro (h | - | h)
        · rcases h with h | h <;> cases h
        · exact h
      refine Finds.congr ?_ hOffends
      cases hRead : (x :: rest).mapM (groupItem field) with
      | error why =>
        rw [hRead] at hMembers
        rw [Alternative.ofJson, hRead]
        exact hMembers
      | ok scalars =>
        rw [hRead] at hMembers
        have hScalars := mapM_groupItem_eq_ok_iff.mp hRead
        -- as many scalars as members, so the group is not empty
        have hne : scalars ≠ [] := by
          rintro rfl
          cases hScalars
        rw [ofJson_array hScalars, AndGroup.ofList?, dif_neg hne]
        exact hMembers

end Alternative

-- ---------------------------------------------------------------------------
-- Criteria
-- ---------------------------------------------------------------------------

namespace Criterion

/-- The values that are criteria. -/
inductive Fits : Json → Prop
  | scalar {v : Json} (h : v.isScalar = true) : Fits v
  /-- A list of alternatives may be empty. -/
  | alternatives {items : List Json} (h : ∀ x ∈ items, Alternative.Fits x) : Fits (.array items)

/-- What offends in a value. -/
inductive Offends (field : String) : Json → List Nat → QueryError → Prop
  | value {v : Json} (h : v.kind = .null ∨ v.kind = .object) :
      Offends field v [] (.invalidValue field v.kind)
  | item {items : List Json} {place : List Nat} {why : QueryError}
      (h : InItems (Alternative.Offends field) items place why) :
      Offends field (.array items) place why

theorem exists_ofJson_iff {field : String} {v : Json} :
    (∃ c, Criterion.ofJson field v = .ok c) ↔ Fits v := by
  simp only [ofJson_eq_ok_iff]
  constructor
  · rintro ⟨c, hScalar | hRead⟩
    · exact .scalar (Json.exists_ofJson?_iff.mp ⟨_, hScalar⟩)
    · refine .alternatives fun x hx => ?_
      obtain ⟨a, -, hAlternative⟩ := exists_of_mem_right hRead.flip hx
      have hRead' := (@Alternative.ofJson_eq_ok_iff field x a).mpr hAlternative
      exact Alternative.exists_ofJson_iff.mp ⟨a, hRead'⟩
  · rintro (h | h)
    · obtain ⟨s, hs⟩ := Json.exists_ofJson?_iff.mpr h
      exact ⟨_, .one hs⟩
    · obtain ⟨alternatives, hRead⟩ := exists_forall₂ fun x hx =>
        (@Alternative.exists_ofJson_iff field x).mpr (h x hx)
      exact ⟨_, .anyOf (hRead.imp fun _ _ => Alternative.ofJson_eq_ok_iff.mp)⟩

/-- Reading a criterion finds the first offence of its value, in the order a reader meets them. -/
theorem finds_ofJson (field : String) (v : Json) :
    Finds (Offends field v) (Criterion.ofJson field v) := by
  cases hItems : v.items? with
  | none =>
    rw [ofJson_of_not_list hItems]
    refine (finds_scalarFor hItems fun place why => ⟨?_, ?_⟩).map Criterion.one
    · rintro (h | -)
      · exact ⟨h, rfl, rfl⟩
      · cases hItems
    · rintro ⟨h, rfl, rfl⟩
      exact .value h
  | some items =>
    obtain rfl := Scalar.eq_array_of_items? hItems
    rw [ofJson_array]
    refine ((finds_mapM (Alternative.finds_ofJson field) items).map Criterion.anyOf).congr ?_
    refine fun place why => ⟨?_, .item⟩
    rintro (h | h)
    · rcases h with h | h <;> cases h
    · exact h

/-- **Criteria are their grammar.** Exactly the values of the grammar are accepted, with the
criterion they read as, and every other value is refused with the error of the offender that is read
first, whatever comes after it. -/
theorem accepts_grammar_or_first_offender (field : String) (v : Json) :
    (∀ c, Criterion.ofJson field v = .ok c ↔ Reads v c) ∧
    ((∃ c, Criterion.ofJson field v = .ok c) ↔ Fits v) ∧
    (∀ why, Criterion.ofJson field v = .error why ↔ First (Offends field v) why) :=
  ⟨fun _ => ofJson_eq_ok_iff, exists_ofJson_iff, fun _ => (finds_ofJson field v).eq_error_iff⟩

/-- The null in the first group is read before the second group turns out to be empty. -/
example : Criterion.ofJson "code" (.array [.array [.bool true, .null], .array []]) =
    .error (.invalidValue "code" .null) := rfl

end Criterion

end FoodScan
