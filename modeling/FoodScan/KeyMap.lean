/-!
# Text-keyed maps

A map from text keys is a list of entries whose keys ascend strictly. Text is ordered by
code points, which is also the order of its UTF-8 bytes, so the list order is the order
in which every printed object shows its keys.

* `Entries.insert`, `Entries.ofList` keep a plain list of entries in key order and let
  the last entry filed under a key win.
* `KeyMap` carries the order as a proof, for the types whose every value has it.
-/

namespace FoodScan

universe u v

/-- Entries filed under text keys, in no promised order. -/
abbrev Entries (α : Type u) := List (String × α)

namespace Entries

variable {α : Type u} {β : Type v}

/-- The keys ascend strictly; in particular no key occurs twice. -/
def Ascending (entries : Entries α) : Prop :=
  entries.Pairwise fun a b => a.1 < b.1

instance (entries : Entries α) : Decidable (Ascending entries) :=
  inferInstanceAs (Decidable (entries.Pairwise fun a b => a.1 < b.1))

/-- Files `x` under `key`, before the first greater key and in place of an equal one. -/
def insert (key : String) (x : α) : Entries α → Entries α
  | [] => [(key, x)]
  | (k, y) :: rest =>
    if key < k then (key, x) :: (k, y) :: rest
    else if key = k then (key, x) :: rest
    else (k, y) :: insert key x rest

/-- Sorts entries by key; of those with one key, the last stays. -/
def ofList (entries : Entries α) : Entries α :=
  entries.foldl (fun filed e => insert e.1 e.2 filed) []

/-- The keys, in list order. -/
def keys (entries : Entries α) : List String := entries.map (·.1)

/-! ## Order -/

/-- What is in a map after a key was filed is filed under that key, or was there. -/
theorem mem_insert {key : String} {x : α} {e : String × α} {entries : Entries α} :
    e ∈ insert key x entries → e = (key, x) ∨ e ∈ entries := by
  induction entries with
  | nil => simp [insert]
  | cons head rest ih =>
    simp only [insert]
    split
    · simp
    · split
      · intro h
        rcases List.mem_cons.1 h with h | h
        · exact .inl h
        · exact .inr (List.mem_cons_of_mem _ h)
      · intro h
        rcases List.mem_cons.1 h with h | h
        · exact .inr (h ▸ List.mem_cons_self)
        · exact (ih h).imp_right (List.mem_cons_of_mem _)

/-- Filing one more entry keeps the keys ascending. -/
theorem Ascending.insert {entries : Entries α} (h : Ascending entries) (key : String) (x : α) :
    Ascending (insert key x entries) := by
  induction entries with
  | nil => simp [Entries.insert, Ascending]
  | cons head rest ih =>
    obtain ⟨k, y⟩ := head
    obtain ⟨hhead, hrest⟩ := List.pairwise_cons.1 h
    simp only [Entries.insert]
    split
    · rename_i hlt
      refine List.pairwise_cons.2 ⟨fun e he => ?_, h⟩
      rcases List.mem_cons.1 he with rfl | he
      · exact hlt
      · exact String.lt_trans hlt (hhead e he)
    · rename_i hge
      split
      · rename_i heq
        subst heq
        exact List.pairwise_cons.2 ⟨hhead, hrest⟩
      · rename_i hne
        refine List.pairwise_cons.2 ⟨fun e he => ?_, ih hrest⟩
        rcases mem_insert he with rfl | he
        · exact String.not_le.1 fun hle =>
            hne (String.le_antisymm hle (String.not_lt.1 hge))
        · exact hhead e he

theorem ascending_nil : Ascending ([] : Entries α) := List.Pairwise.nil

/-- Sorting entries leaves their keys ascending. -/
theorem ascending_ofList (entries : Entries α) : Ascending (ofList entries) := by
  unfold ofList
  suffices h : ∀ filed : Entries α, Ascending filed →
      Ascending (entries.foldl (fun filed e => insert e.1 e.2 filed) filed) from
    h [] ascending_nil
  induction entries with
  | nil => exact fun _ h => h
  | cons e rest ih => exact fun filed h => ih _ (h.insert e.1 e.2)

/-- Changing the values leaves the keys as they are. -/
theorem Ascending.map {entries : Entries α} (h : Ascending entries) (f : String → α → β) :
    Ascending (entries.map fun e => (e.1, f e.1 e.2)) :=
  List.Pairwise.map _ (fun _ _ hab => hab) h

/-! ## Look-up -/

/-- What was filed last under a key is found there. -/
theorem lookup_insert_self (key : String) (x : α) (entries : Entries α) :
    (insert key x entries).lookup key = some x := by
  induction entries with
  | nil => simp [insert]
  | cons head rest ih =>
    obtain ⟨k, y⟩ := head
    simp only [insert]
    split
    · simp
    · split
      · simp
      · rename_i hne
        have hb : (key == k) = false := beq_eq_false_iff_ne.2 hne
        simp [List.lookup_cons, hb, ih]

/-- Other keys keep what is filed under them. -/
theorem lookup_insert_of_ne {key other : String} (hne : other ≠ key) (x : α)
    (entries : Entries α) : (insert key x entries).lookup other = entries.lookup other := by
  have hb : (other == key) = false := beq_eq_false_iff_ne.2 hne
  induction entries with
  | nil => simp [insert, List.lookup_cons, hb]
  | cons head rest ih =>
    obtain ⟨k, y⟩ := head
    simp only [insert]
    split
    · simp [List.lookup_cons, hb]
    · split
      · rename_i heq
        subst heq
        simp [List.lookup_cons, hb]
      · simp only [List.lookup_cons, ih]

end Entries

/-- A map from text keys: its entries, the keys strictly ascending. -/
structure KeyMap (α : Type u) where
  entries : Entries α
  ascending : Entries.Ascending entries
deriving DecidableEq

namespace KeyMap

variable {α : Type u}

/-- Maps with the same entries are the same. -/
theorem ext {m n : KeyMap α} (h : m.entries = n.entries) : m = n := by
  cases m; cases n; cases h; rfl

def empty : KeyMap α := ⟨[], Entries.ascending_nil⟩

instance : Inhabited (KeyMap α) := ⟨empty⟩

/-- Files `x` under `key`, in place of what was there. -/
def insert (m : KeyMap α) (key : String) (x : α) : KeyMap α :=
  ⟨Entries.insert key x m.entries, m.ascending.insert key x⟩

/-- What is filed under `key`. -/
def get? (m : KeyMap α) (key : String) : Option α := m.entries.lookup key

/-- Sorts entries by key; of those with one key, the last stays. -/
def ofList (entries : Entries α) : KeyMap α :=
  ⟨Entries.ofList entries, Entries.ascending_ofList entries⟩

/-- The keys, ascending. -/
def keys (m : KeyMap α) : List String := Entries.keys m.entries

/-- What was filed last under a key is found there. -/
@[simp] theorem get?_insert_self (m : KeyMap α) (key : String) (x : α) :
    (m.insert key x).get? key = some x :=
  Entries.lookup_insert_self key x m.entries

/-- Other keys of a map keep what is filed under them. -/
theorem get?_insert_of_ne (m : KeyMap α) {key other : String} (h : other ≠ key) (x : α) :
    (m.insert key x).get? other = m.get? other :=
  Entries.lookup_insert_of_ne h x m.entries

end KeyMap

end FoodScan
