import FoodScan.Proofs.Traversal

/-!
# Gathering results in any order

Files are loaded side by side, and nobody knows which of them is finished first. A `Gathering`
keeps a slot for every item, in the order of the items, and the first error that comes up; from then
on no result is taken any more. A run finishes one item after the other, in whatever order
(`Gathering.Step`), until an error has come up or every slot is filled (`Gathering.Ended`).

The invariant is `Gathering.Faithful`: the slots are those of the items, a filled one holds what its
item gives, and an error is that of some item. A step keeps it (`Faithful.step`), so a run does
(`Faithful.run`). So a run cannot lose, repeat or misplace a result:

* `forall₂_of_mayEndIn_ok` — if it succeeds, then with the result of each item in its place;
* `exists_ok_iff_of_mayEndIn` — it succeeds exactly if every item does;
* `eq_error_of_mayEndIn` — if one item fails and the others do not, that one gives the error;
* `eq_of_mayEndIn` — so all runs end alike, unless two items fail.

`mayEndIn_mapM`: checking item after item is one of the runs.
-/

namespace FoodScan

/-- Results on the way: the items, each with its result once that is there, and the first error. -/
structure Gathering (α β ε : Type) where
  slots : List (α × Option β)
  failure? : Option ε

namespace Gathering

variable {α β ε : Type} {load : α → Except ε β} {xs : List α}

def start (xs : List α) : Gathering α β ε := ⟨xs.map fun x => (x, none), none⟩

/-- Some item is finished that was not. Nothing is taken any more once there is an error. -/
inductive Step (load : α → Except ε β) : Gathering α β ε → Gathering α β ε → Prop
  | result {before after : List (α × Option β)} {x : α} {y : β} (h : load x = .ok y) :
    Step load ⟨before ++ (x, none) :: after, none⟩ ⟨before ++ (x, some y) :: after, none⟩
  | failure {before after : List (α × Option β)} {x : α} {e : ε} (h : load x = .error e) :
    Step load ⟨before ++ (x, none) :: after, none⟩ ⟨before ++ (x, none) :: after, some e⟩

/-- What a run has come to, if it is at its end: the error, or all results in the order of the
items. -/
inductive Ended : Gathering α β ε → Except ε (List β) → Prop
  | failure (slots : List (α × Option β)) (e : ε) : Ended ⟨slots, some e⟩ (.error e)
  | results (pairs : List (α × β)) :
    Ended ⟨pairs.map fun p => (p.1, some p.2), none⟩ (.ok (pairs.map Prod.snd))

def MayEndIn (load : α → Except ε β) (xs : List α) (outcome : Except ε (List β)) : Prop :=
  ∃ s, Relation.ReflTransGen (Step load) (start xs) s ∧ Ended s outcome

-- ---------------------------------------------------------------------------
-- Every run
-- ---------------------------------------------------------------------------

/-- What is there is what the items give. -/
structure Faithful (load : α → Except ε β) (xs : List α) (s : Gathering α β ε) : Prop where
  items : s.slots.map Prod.fst = xs
  results : ∀ slot ∈ s.slots, ∀ y, slot.2 = some y → load slot.1 = .ok y
  failure : ∀ e, s.failure? = some e → ∃ x ∈ xs, load x = .error e

/-- Before the first item has arrived there is nothing to be unfaithful to. -/
theorem faithful_start (load : α → Except ε β) (xs : List α) : Faithful load xs (start xs) where
  items := by
    rw [start, List.map_map]
    exact List.map_id xs
  results := by
    intro slot hSlot y hy
    obtain ⟨x, -, rfl⟩ := List.mem_map.mp hSlot
    cases hy
  failure := by
    rintro e ⟨⟩

/-- **One step.** -/
theorem Faithful.step {s s' : Gathering α β ε} (h : Faithful load xs s) (hStep : Step load s s') :
    Faithful load xs s' := by
  cases hStep with
  -- one slot is filled with the result of its own item, and the others stay
  | @result before after x y hLoad =>
    obtain ⟨hItems, hResults, -⟩ := h
    refine ⟨?_, fun slot hSlot z hz => ?_, by rintro e ⟨⟩⟩
    · rw [← hItems]
      simp
    · rcases List.mem_append.mp hSlot with hMem | hMem
      · exact hResults slot (List.mem_append_left _ hMem) z hz
      · rcases List.mem_cons.mp hMem with rfl | hMem'
        · cases hz
          exact hLoad
        · exact hResults slot (List.mem_append_right _ (List.mem_cons_of_mem _ hMem')) z hz
  | @failure before after x e hLoad =>
    obtain ⟨hItems, hResults, -⟩ := h
    refine ⟨hItems, hResults, ?_⟩
    rintro e' ⟨⟩
    refine ⟨x, ?_, hLoad⟩
    rw [← hItems]
    simp

/-- **A whole run.** -/
theorem Faithful.run {s : Gathering α β ε}
    (h : Relation.ReflTransGen (Step load) (start xs) s) : Faithful load xs s := by
  induction h with
  | refl => exact faithful_start load xs
  | tail _ hStep ih => exact ih.step hStep

/-- A gathering that ends well has every item, in the order of the list. -/
theorem forall₂_of_mayEndIn_ok {ys : List β} (h : MayEndIn load xs (.ok ys)) :
    List.Forall₂ (fun x y => load x = .ok y) xs ys := by
  obtain ⟨s, hRun, hEnd⟩ := h
  obtain ⟨hItems, hResults, -⟩ := Faithful.run hRun
  cases hEnd with
  | results pairs =>
    rw [List.map_map] at hItems
    rw [← hItems, List.forall₂_map_left_iff, List.forall₂_map_right_iff, List.forall₂_same]
    intro p hp
    exact hResults (p.1, some p.2) (List.mem_map.mpr ⟨p, hp, rfl⟩) p.2 rfl

/-- A gathering that fails does so with the error of an item. -/
theorem exists_of_mayEndIn_error {e : ε} (h : MayEndIn load xs (.error e)) :
    ∃ x ∈ xs, load x = .error e := by
  obtain ⟨s, hRun, hEnd⟩ := h
  cases hEnd with
  | failure slots e => exact (Faithful.run hRun).failure e rfl

/-- **Success.** A run succeeds exactly if every item does. -/
theorem exists_ok_iff_of_mayEndIn {outcome : Except ε (List β)} (h : MayEndIn load xs outcome) :
    (∃ ys, outcome = .ok ys) ↔ ∀ x ∈ xs, ∃ y, load x = .ok y := by
  constructor
  · rintro ⟨ys, rfl⟩ x hx
    obtain ⟨y, -, hLoad⟩ := exists_of_mem_right (forall₂_of_mayEndIn_ok h).flip hx
    exact ⟨y, hLoad⟩
  · intro hAll
    cases outcome with
    | ok ys => exact ⟨ys, rfl⟩
    | error e =>
      obtain ⟨x, hx, hError⟩ := exists_of_mayEndIn_error h
      obtain ⟨y, hLoad⟩ := hAll x hx
      rw [hLoad] at hError
      cases hError

/-- **Failure.** The only item that fails decides, whatever comes before or after it. -/
theorem eq_error_of_mayEndIn {outcome : Except ε (List β)} (h : MayEndIn load xs outcome) {x : α}
    {e : ε} (hx : x ∈ xs) (hError : load x = .error e)
    (hOthers : ∀ x' ∈ xs, x' ≠ x → ∃ y, load x' = .ok y) : outcome = .error e := by
  cases outcome with
  | ok ys =>
    obtain ⟨y, hLoad⟩ := (exists_ok_iff_of_mayEndIn h).mp ⟨ys, rfl⟩ x hx
    rw [hLoad] at hError
    cases hError
  | error e' =>
    obtain ⟨x', hx', hError'⟩ := exists_of_mayEndIn_error h
    -- the error is that of some element, and only `x` has one
    by_cases hSame : x' = x
    · rw [hSame, hError] at hError'
      rw [Except.error.inj hError']
    · obtain ⟨y, hLoad⟩ := hOthers x' hx' hSame
      rw [hLoad] at hError'
      cases hError'

/-- **Every order gives the same**, as long as no two items fail. -/
theorem eq_of_mayEndIn {outcome outcome' : Except ε (List β)} (h : MayEndIn load xs outcome)
    (h' : MayEndIn load xs outcome')
    (hOne : ∀ x ∈ xs, ∀ x' ∈ xs, (∃ e, load x = .error e) → (∃ e, load x' = .error e) → x' = x) :
    outcome = outcome' := by
  -- with one failing item its error is the only outcome; with none, all results are there and in
  -- order
  by_cases hFails : ∃ x ∈ xs, ∃ e, load x = .error e
  · obtain ⟨x, hx, e, hError⟩ := hFails
    have hOthers : ∀ x' ∈ xs, x' ≠ x → ∃ y, load x' = .ok y := by
      intro x' hx' hNe
      cases hResult : load x' with
      | ok y => exact ⟨y, rfl⟩
      | error e' => exact absurd (hOne x hx x' hx' ⟨e, hError⟩ ⟨e', hResult⟩) hNe
    rw [eq_error_of_mayEndIn h hx hError hOthers, eq_error_of_mayEndIn h' hx hError hOthers]
  · have hAll : ∀ x ∈ xs, ∃ y, load x = .ok y := by
      intro x hx
      cases hResult : load x with
      | ok y => exact ⟨y, rfl⟩
      | error e => exact absurd ⟨x, hx, e, hResult⟩ hFails
    obtain ⟨ys, rfl⟩ := (exists_ok_iff_of_mayEndIn h).mpr hAll
    obtain ⟨ys', rfl⟩ := (exists_ok_iff_of_mayEndIn h').mpr hAll
    have hUnique : Relator.RightUnique fun x y => load x = .ok y :=
      fun _ _ _ hLoad hLoad' => Except.ok.inj (hLoad.symm.trans hLoad')
    rw [List.right_unique_forall₂' hUnique (forall₂_of_mayEndIn_ok h) (forall₂_of_mayEndIn_ok h')]

-- ---------------------------------------------------------------------------
-- Item after item
-- ---------------------------------------------------------------------------

/-- With some items finished, the others can be finished one after the other. -/
theorem exists_run_in_order (load : α → Except ε β) (xs : List α) (done : List (α × β)) :
    ∃ s, Relation.ReflTransGen (Step load)
        ⟨(done.map fun p => (p.1, some p.2)) ++ xs.map fun x => (x, none), none⟩ s ∧
      Ended s ((xs.mapM load).map fun ys => done.map Prod.snd ++ ys) := by
  induction xs generalizing done with
  | nil =>
    refine ⟨_, .refl, ?_⟩
    have hEnd : Ended (ε := ε) ⟨done.map fun p => (p.1, some p.2), none⟩
        (.ok (done.map Prod.snd)) := .results done
    simpa [pure, Except.pure, Except.map] using hEnd
  | cons x rest ih =>
    cases hLoad : load x with
    | error e =>
      -- the run ends here, and so does the traversal
      refine ⟨_, .single (.failure hLoad), ?_⟩
      rw [mapM_cons_eq_error_iff.mpr (Or.inl hLoad)]
      exact .failure _ e
    | ok y =>
      -- the item goes over to those that are finished
      obtain ⟨s, hRun, hEnd⟩ := ih (done ++ [(x, y)])
      have hMapM : ((x :: rest).mapM load).map (fun ys => done.map Prod.snd ++ ys) =
          (rest.mapM load).map fun ys => (done ++ [(x, y)]).map Prod.snd ++ ys := by
        rw [List.mapM_cons, hLoad]
        cases rest.mapM load <;> simp [bind, Except.bind, pure, Except.pure, Except.map]
      refine ⟨s, .head (.result hLoad) ?_, hMapM ▸ hEnd⟩
      simpa using hRun

/-- Going through the list from its start is one of the ways to gather it. -/
theorem mayEndIn_mapM (load : α → Except ε β) (xs : List α) : MayEndIn load xs (xs.mapM load) := by
  obtain ⟨s, hRun, hEnd⟩ := exists_run_in_order load xs []
  refine ⟨s, hRun, ?_⟩
  cases hMapM : xs.mapM load <;> simpa [hMapM, Except.map] using hEnd

end Gathering

end FoodScan
