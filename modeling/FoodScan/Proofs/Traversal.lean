import Mathlib

/-!
# Checking a list item by item

Documents, rows and queries are read by `List.mapM`: every item is checked in turn, and the first
that fails decides. The two ways such a traversal can end:

* `mapM_eq_ok_iff` — it succeeds with the results of the items, in order.
* `mapM_eq_error_iff` — it fails with the error of the first item that fails.
* `mapM_eq_some_iff` — the same as the first, for checks that give no error.

A successful traversal pairs items with results; `exists_of_mem_right` and `lookup_forall₂` follow
one result, or one key, back through the pairing. `exists_of_mem_sublistForall₂` does so where some
results belong to no item.
-/

namespace FoodScan

variable {α β ε : Type}

-- ---------------------------------------------------------------------------
-- One check after the other
-- ---------------------------------------------------------------------------

theorem ok_bind (a : α) (f : α → Except ε β) : ((.ok a : Except ε α) >>= f) = f a := rfl

/-- A chain succeeds if its first check does, and the rest does with what that gives. -/
theorem bind_eq_ok_iff {x : Except ε α} {f : α → Except ε β} {b : β} :
    (x >>= f) = .ok b ↔ ∃ a, x = .ok a ∧ f a = .ok b := by
  cases x <;> simp [bind, Except.bind]

/-- A chain fails if its first check does, or the rest does with what that gives. -/
theorem bind_eq_error_iff {x : Except ε α} {f : α → Except ε β} {e : ε} :
    (x >>= f) = .error e ↔ x = .error e ∨ ∃ a, x = .ok a ∧ f a = .error e := by
  cases x <;> simp [bind, Except.bind]

theorem map_eq_ok_iff {x : Except ε α} {f : α → β} {b : β} :
    x.map f = .ok b ↔ ∃ a, x = .ok a ∧ f a = b := by
  cases x <;> simp [Except.map]

/-- Another wording of errors makes no difference to results. -/
theorem mapError_eq_ok_iff {ε' : Type} {x : Except ε α} {f : ε → ε'} {a : α} :
    x.mapError f = .ok a ↔ x = .ok a := by
  cases x <;> simp [Except.mapError]

theorem toOption_eq_some_iff {x : Except ε α} {a : α} : x.toOption = some a ↔ x = .ok a := by
  cases x <;> simp [Except.toOption]

-- ---------------------------------------------------------------------------
-- Checks with an error
-- ---------------------------------------------------------------------------

/-- A traversal succeeds if it does at the first element and at the others. -/
theorem mapM_cons_eq_ok_iff {f : α → Except ε β} {x : α} {xs : List α} {ys : List β} :
    (x :: xs).mapM f = .ok ys ↔
      ∃ y rest, f x = .ok y ∧ xs.mapM f = .ok rest ∧ ys = y :: rest := by
  rw [List.mapM_cons]
  cases hx : f x with
  | error e => simp [bind, Except.bind]
  | ok y =>
    cases hxs : xs.mapM f with
    | error e => simp [bind, Except.bind]
    | ok rest => simp [bind, Except.bind, pure, Except.pure, eq_comm]

/-- It fails at the first element, or else at the others. -/
theorem mapM_cons_eq_error_iff {f : α → Except ε β} {x : α} {xs : List α} {e : ε} :
    (x :: xs).mapM f = .error e ↔
      f x = .error e ∨ ∃ y, f x = .ok y ∧ xs.mapM f = .error e := by
  rw [List.mapM_cons]
  cases hx : f x with
  | error e' => simp [bind, Except.bind]
  | ok y => cases hxs : xs.mapM f <;> simp [bind, Except.bind, pure, Except.pure]

/-- A traversal succeeds with the results of its items. -/
theorem mapM_eq_ok_iff {f : α → Except ε β} {xs : List α} {ys : List β} :
    xs.mapM f = .ok ys ↔ List.Forall₂ (fun x y => f x = .ok y) xs ys := by
  induction xs generalizing ys with
  | nil => simp [pure, Except.pure, eq_comm]
  | cons x xs ih =>
    rw [mapM_cons_eq_ok_iff, List.forall₂_cons_left_iff]
    constructor
    · rintro ⟨y, rest, hx, hRest, rfl⟩
      exact ⟨y, rest, hx, ih.mp hRest, rfl⟩
    · rintro ⟨y, rest, hx, hRest, rfl⟩
      exact ⟨y, rest, hx, ih.mpr hRest, rfl⟩

/-- A traversal succeeds item by item, whatever relation says what one item gives. -/
theorem mapM_eq_ok_iff_of {f : α → Except ε β} {R : α → β → Prop}
    (hf : ∀ x y, f x = .ok y ↔ R x y) {xs : List α} {ys : List β} :
    xs.mapM f = .ok ys ↔ List.Forall₂ R xs ys := by
  have hRel : (fun x y => f x = .ok y) = R := by
    funext x y
    exact propext (hf x y)
  rw [mapM_eq_ok_iff, hRel]

/-- A traversal fails with the error of the first item that fails. -/
theorem mapM_eq_error_iff {f : α → Except ε β} {xs : List α} {e : ε} :
    xs.mapM f = .error e ↔
      ∃ before x after, xs = before ++ x :: after ∧ f x = .error e ∧
        ∀ y ∈ before, ∃ b, f y = .ok b := by
  induction xs with
  | nil => simp [pure, Except.pure]
  | cons x xs ih =>
    rw [mapM_cons_eq_error_iff, ih]
    constructor
    · -- the first item fails, or it goes well and the error is one of the rest
      rintro (hx | ⟨y, hx, before, z, after, rfl, hz, hBefore⟩)
      · exact ⟨[], x, xs, rfl, hx, by simp⟩
      · refine ⟨x :: before, z, after, rfl, hz, fun w hw => ?_⟩
        rcases List.mem_cons.mp hw with rfl | hw'
        · exact ⟨y, hx⟩
        · exact hBefore w hw'
    · rintro ⟨before, z, after, hSplit, hz, hBefore⟩
      cases before with
      | nil =>
        obtain ⟨rfl, rfl⟩ := List.cons.inj hSplit
        exact Or.inl hz
      | cons w before =>
        obtain ⟨rfl, rfl⟩ := List.cons.inj hSplit
        obtain ⟨y, hx⟩ := hBefore x List.mem_cons_self
        exact Or.inr ⟨y, hx, before, z, after, rfl, hz,
          fun v hv => hBefore v (List.mem_cons_of_mem _ hv)⟩

/-- Traversals by functions that agree on the elements are the same. -/
theorem mapM_congr {f g : α → Except ε β} {xs : List α} (h : ∀ x ∈ xs, f x = g x) :
    xs.mapM f = xs.mapM g := by
  induction xs with
  | nil => rfl
  | cons x rest ih =>
    obtain ⟨hHead, hRest⟩ := List.forall_mem_cons.mp h
    rw [List.mapM_cons, List.mapM_cons, hHead, ih hRest]

-- ---------------------------------------------------------------------------
-- Checks without an error
-- ---------------------------------------------------------------------------

/-- A traversal without errors relates elements and results one by one. -/
theorem mapM_eq_some_iff {f : α → Option β} {xs : List α} {ys : List β} :
    xs.mapM f = some ys ↔ List.Forall₂ (fun x y => f x = some y) xs ys := by
  induction xs generalizing ys with
  | nil => simp [eq_comm]
  | cons x xs ih =>
    rw [List.mapM_cons, List.forall₂_cons_left_iff]
    constructor
    · intro h
      obtain ⟨y, hx, hRest⟩ := Option.bind_eq_some_iff.mp h
      obtain ⟨rest, hxs, hEq⟩ := Option.bind_eq_some_iff.mp hRest
      exact ⟨y, rest, hx, ih.mp hxs, (Option.some.inj hEq).symm⟩
    · rintro ⟨y, rest, hx, hRest, rfl⟩
      rw [hx, ih.mpr hRest]
      rfl

-- ---------------------------------------------------------------------------
-- Items and their results
-- ---------------------------------------------------------------------------

/-- Every result belongs to an item. -/
theorem exists_of_mem_right {R : α → β → Prop} {xs : List α} {ys : List β}
    (h : List.Forall₂ R xs ys) {y : β} (hy : y ∈ ys) : ∃ x ∈ xs, R x y := by
  induction h with
  | nil => simp at hy
  | @cons x z xs ys hHead _ ih =>
    rcases List.mem_cons.mp hy with rfl | hy'
    · exact ⟨x, List.mem_cons_self, hHead⟩
    · obtain ⟨w, hw, hR⟩ := ih hy'
      exact ⟨w, List.mem_cons_of_mem _ hw, hR⟩

/-- Where every item can have a result, results can be chosen for all of them. -/
theorem exists_forall₂ {R : α → β → Prop} {xs : List α} (h : ∀ x ∈ xs, ∃ y, R x y) :
    ∃ ys, List.Forall₂ R xs ys := by
  induction xs with
  | nil => exact ⟨[], .nil⟩
  | cons x rest ih =>
    obtain ⟨hHead, hRest⟩ := List.forall_mem_cons.mp h
    obtain ⟨y, hy⟩ := hHead
    obtain ⟨ys, hys⟩ := ih hRest
    exact ⟨y :: ys, .cons hy hys⟩

/-- Every item has a result, though there may be results beside those. -/
theorem exists_of_mem_sublistForall₂ {R : α → β → Prop} {xs : List α} {ys : List β}
    (h : List.SublistForall₂ R xs ys) {x : α} (hx : x ∈ xs) : ∃ y ∈ ys, R x y := by
  obtain ⟨results, hPaired, hSublist⟩ := List.sublistForall₂_iff.mp h
  obtain ⟨y, hy, hR⟩ := exists_of_mem_right hPaired.flip hx
  exact ⟨y, hSublist.subset hy, hR⟩

/-- Searches by functions that agree on the elements are the same. -/
theorem findSome?_congr {f g : α → Option β} {xs : List α} (h : ∀ x ∈ xs, f x = g x) :
    xs.findSome? f = xs.findSome? g := by
  induction xs with
  | nil => rfl
  | cons x xs ih =>
    obtain ⟨hHead, hRest⟩ := List.forall_mem_cons.mp h
    rw [List.findSome?_cons, List.findSome?_cons, hHead, ih hRest]

/-- Where entries keep their keys, a key finds an item and its result, or neither. -/
theorem lookup_forall₂ {R : α → β → Prop} {xs : List (String × α)} {ys : List (String × β)}
    (h : List.Forall₂ (fun e f => f.1 = e.1 ∧ R e.2 f.2) xs ys) (key : String) :
    Option.Rel R (xs.lookup key) (ys.lookup key) := by
  induction h with
  | nil => exact .none
  | @cons e f xs ys hHead _ ih =>
    rw [List.lookup_cons, List.lookup_cons, hHead.1]
    cases key == e.1
    · exact ih
    · exact .some hHead.2

/-- Entries that are related under the same keys have the same keys. -/
theorem map_fst_forall₂ {R : α → β → Prop} {xs : List (String × α)} {ys : List (String × β)}
    (h : List.Forall₂ (fun e f => f.1 = e.1 ∧ R e.2 f.2) xs ys) :
    ys.map Prod.fst = xs.map Prod.fst := by
  induction h with
  | nil => rfl
  | cons hHead _ ih => rw [List.map_cons, List.map_cons, hHead.1, ih]

end FoodScan
