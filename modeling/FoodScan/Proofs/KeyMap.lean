import Mathlib
import FoodScan.KeyMap

/-!
# Look-ups in sorted entries

* `lookup_ofList` — after sorting, a key finds what the last entry under it held.
* `ofList_perm` — sorting loses nothing where keys are distinct.
* `ofList_of_ascending` — entries that ascend already stay as they are; so a map is the map of
  its entries (`KeyMap.ofList_entries`).
* `KeyMap.get?_eq_some_iff` — a key finds a value if and only if the two are an entry;
  `KeyMap.get?_eq_none_iff` — it finds nothing if and only if it is none of the keys;
  `KeyMap.ext_get?` — what the keys find is all there is to a map.
-/

namespace FoodScan

namespace Entries

variable {α β : Type}

-- ---------------------------------------------------------------------------
-- Sorting
-- ---------------------------------------------------------------------------

/-- Filing under a key is looking there first. -/
theorem lookup_insert (key other : String) (x : α) (entries : Entries α) :
    (insert key x entries).lookup other =
      ([(key, x)].lookup other).or (entries.lookup other) := by
  by_cases hKey : other = key
  · subst hKey
    simp [lookup_insert_self]
  · have hb : (other == key) = false := beq_eq_false_iff_ne.mpr hKey
    simp [lookup_insert_of_ne hKey, List.lookup_cons, hb]

/-- The last entry filed under a key is the one found. -/
theorem lookup_ofList (key : String) (entries : Entries α) :
    (ofList entries).lookup key = entries.reverse.lookup key := by
  -- what is filed later hides what was filed before
  have hFold : ∀ filed : Entries α,
      (entries.foldl (fun filed e => insert e.1 e.2 filed) filed).lookup key =
        (entries.reverse.lookup key).or (filed.lookup key) := by
    induction entries with
    | nil => intro filed; simp
    | cons e rest ih =>
      intro filed
      rw [List.foldl_cons, ih, lookup_insert, List.reverse_cons, List.lookup_append,
        Option.or_assoc]
  rw [ofList, hFold []]
  simp

/-- An entry above all others is filed at the end. -/
theorem insert_of_forall_lt {key : String} {x : α} {entries : Entries α}
    (h : ∀ e ∈ entries, e.1 < key) : insert key x entries = entries ++ [(key, x)] := by
  induction entries with
  | nil => rfl
  | cons head rest ih =>
    have hHead : head.1 < key := h head List.mem_cons_self
    rw [insert, if_neg (String.lt_asymm hHead), if_neg (String.ne_of_lt hHead).symm,
      ih fun e he => h e (List.mem_cons_of_mem _ he)]
    rfl

/-- Ascending entries are sorted already. -/
theorem ofList_of_ascending {entries : Entries α} (h : Ascending entries) :
    ofList entries = entries := by
  -- the fold starts with any entries already filed, as long as all of them come before the rest
  have hFold : ∀ filed : Entries α, Ascending (filed ++ entries) →
      entries.foldl (fun filed e => insert e.1 e.2 filed) filed = filed ++ entries := by
    induction entries with
    | nil => intro filed _; simp
    | cons e rest ih =>
      intro filed hAsc
      have hBelow : ∀ f ∈ filed, f.1 < e.1 := fun f hf =>
        (List.pairwise_append.mp hAsc).2.2 f hf e List.mem_cons_self
      rw [List.foldl_cons, insert_of_forall_lt hBelow,
        ih (List.pairwise_cons.mp h).2 (filed ++ [e]) (by simpa using hAsc)]
      simp
  exact hFold [] h

/-- Where keys ascend, the last entry under a key is the first. -/
theorem lookup_reverse {entries : Entries α} (h : Ascending entries) (key : String) :
    entries.reverse.lookup key = entries.lookup key := by
  rw [← lookup_ofList, ofList_of_ascending h]

/-- Filing entries adds none. -/
theorem mem_of_mem_ofList {e : String × α} {entries : Entries α} (h : e ∈ ofList entries) :
    e ∈ entries := by
  have hFold : ∀ filed : Entries α,
      e ∈ entries.foldl (fun filed e => insert e.1 e.2 filed) filed → e ∈ entries ∨ e ∈ filed := by
    clear h
    induction entries with
    | nil => exact fun filed h => Or.inr h
    | cons f rest ih =>
      intro filed h
      rcases ih _ h with h | h
      · exact Or.inl (List.mem_cons_of_mem _ h)
      · rcases mem_insert h with rfl | h
        · exact Or.inl List.mem_cons_self
        · exact Or.inr h
  exact (hFold [] h).resolve_right List.not_mem_nil

/-- Entries may be filed before or after their values are changed. -/
theorem insert_map (f : α → β) (key : String) (x : α) (entries : Entries α) :
    insert key (f x) (entries.map fun e => (e.1, f e.2)) =
      (insert key x entries).map fun e => (e.1, f e.2) := by
  induction entries with
  | nil => rfl
  | cons head rest ih =>
    rw [List.map_cons, insert, insert, ih]
    split
    · rfl
    · split <;> rfl

/-- Values can be changed before or after sorting. -/
theorem ofList_map (f : α → β) (entries : Entries α) :
    ofList (entries.map fun e => (e.1, f e.2)) = (ofList entries).map fun e => (e.1, f e.2) := by
  have hFold : ∀ filed : Entries α,
      (entries.map fun e => (e.1, f e.2)).foldl (fun filed e => insert e.1 e.2 filed)
          (filed.map fun e => (e.1, f e.2)) =
        (entries.foldl (fun filed e => insert e.1 e.2 filed) filed).map fun e => (e.1, f e.2) := by
    induction entries with
    | nil => exact fun _ => rfl
    | cons e rest ih =>
      intro filed
      rw [List.map_cons, List.foldl_cons, List.foldl_cons, ← ih, ← insert_map]
  exact hFold []

/-- A new key is filed among the others, in some place. -/
theorem insert_perm {key : String} {x : α} {entries : Entries α} (h : key ∉ keys entries) :
    (insert key x entries).Perm ((key, x) :: entries) := by
  induction entries with
  | nil => exact .refl _
  | cons head rest ih =>
    obtain ⟨hHead, hRest⟩ := not_or.mp (List.mem_cons.not.mp h)
    have hne : key ≠ head.1 := hHead
    rw [insert, if_neg hne]
    split
    · exact .refl _
    · exact ((ih hRest).cons head).trans (.swap _ _ _)

/-- Sorting entries with distinct keys loses none of them. -/
theorem ofList_perm {entries : Entries α} (h : (keys entries).Nodup) :
    (ofList entries).Perm entries := by
  -- the fold is followed from any entries filed before, since the induction changes what it starts
  -- from
  have hFold : ∀ filed : Entries α, (keys (filed ++ entries)).Nodup →
      (entries.foldl (fun filed e => insert e.1 e.2 filed) filed).Perm (filed ++ entries) := by
    clear h
    induction entries with
    | nil => exact fun filed _ => by rw [List.append_nil]; exact .refl _
    | cons e rest ih =>
      intro filed hNodup
      have hMiddle : (filed ++ e :: rest).Perm (e :: (filed ++ rest)) := List.perm_middle
      have hNodup' : (keys (e :: (filed ++ rest))).Nodup :=
        (hMiddle.map Prod.fst).nodup_iff.mp hNodup
      have hNew : e.1 ∉ keys filed := by
        intro hMem
        refine (List.nodup_cons.mp hNodup').1 ?_
        rw [← keys, keys, List.map_append]
        exact List.mem_append_left _ hMem
      have hFiled : (insert e.1 e.2 filed ++ rest).Perm (e :: (filed ++ rest)) :=
        (insert_perm hNew).append_right rest
      exact (ih _ ((hFiled.map Prod.fst).nodup_iff.mpr hNodup')).trans
        (hFiled.trans hMiddle.symm)
  exact hFold [] h

-- ---------------------------------------------------------------------------
-- Ascending entries
-- ---------------------------------------------------------------------------

/-- What is found under a key is filed under it. -/
theorem mem_of_lookup_eq_some {key : String} {x : α} {entries : Entries α}
    (h : entries.lookup key = some x) : (key, x) ∈ entries := by
  induction entries with
  | nil => simp at h
  | cons head rest ih =>
    rw [List.lookup_cons] at h
    split at h
    · rename_i hKey
      rw [← Option.some.inj h, eq_of_beq hKey]
      exact List.mem_cons_self
    · exact List.mem_cons_of_mem _ (ih h)

/-- Where keys are distinct, every entry is found. -/
theorem lookup_eq_some_iff_of_nodup {key : String} {x : α} {entries : Entries α}
    (h : (keys entries).Nodup) : entries.lookup key = some x ↔ (key, x) ∈ entries := by
  refine ⟨mem_of_lookup_eq_some, fun hMem => ?_⟩
  induction entries with
  | nil => simp at hMem
  | cons head rest ih =>
    obtain ⟨hHead, hRest⟩ := List.nodup_cons.mp h
    rw [List.lookup_cons]
    rcases List.mem_cons.mp hMem with rfl | hMem'
    · simp
    · -- a head of the same name would be a second entry of it
      have hne : key ≠ head.1 := by
        intro hKey
        exact hHead (List.mem_map.mpr ⟨(key, x), hMem', hKey⟩)
      rw [beq_eq_false_iff_ne.mpr hne]
      exact ih hRest hMem'

/-- Ascending keys are distinct. -/
theorem Ascending.nodup_keys {entries : Entries α} (h : Ascending entries) :
    (keys entries).Nodup :=
  List.pairwise_map.mpr (h.imp String.ne_of_lt)

/-- Where keys ascend, every entry is found. -/
theorem lookup_eq_some_iff {key : String} {x : α} {entries : Entries α}
    (h : Ascending entries) : entries.lookup key = some x ↔ (key, x) ∈ entries :=
  lookup_eq_some_iff_of_nodup h.nodup_keys

/-- Before an entry stand the entries with smaller keys. -/
theorem Ascending.mem_before_iff {before after : Entries α} {e f : String × α}
    (h : Ascending (before ++ e :: after)) :
    f ∈ before ↔ f ∈ before ++ e :: after ∧ f.1 < e.1 := by
  obtain ⟨-, hTail, hCross⟩ := List.pairwise_append.mp h
  constructor
  · intro hf
    exact ⟨List.mem_append_left _ hf, hCross f hf e List.mem_cons_self⟩
  · rintro ⟨hMem, hLt⟩
    rcases List.mem_append.mp hMem with hf | hf
    · exact hf
    · rcases List.mem_cons.mp hf with rfl | hf'
      · exact absurd hLt (String.lt_irrefl _)
      · exact absurd hLt (String.lt_asymm ((List.pairwise_cons.mp hTail).1 f hf'))

/-- Entries after another one have greater keys. -/
theorem Ascending.lt_of_mem_after {before after : Entries α} {e f : String × α}
    (h : Ascending (before ++ e :: after)) (hf : f ∈ after) : e.1 < f.1 :=
  (List.pairwise_cons.mp (List.pairwise_append.mp h).2.1).1 f hf

/-- A value may be looked up before or after it is changed. -/
theorem lookup_map (f : α → β) (key : String) (entries : Entries α) :
    (entries.map fun e => (e.1, f e.2)).lookup key = (entries.lookup key).map f := by
  induction entries with
  | nil => rfl
  | cons head rest ih =>
    rw [List.map_cons, List.lookup_cons, List.lookup_cons, ih]
    cases key == head.1 <;> rfl

end Entries

namespace KeyMap

variable {α : Type}

/-- What a map has under a key is among its entries. -/
theorem get?_eq_some_iff {m : KeyMap α} {key : String} {x : α} :
    m.get? key = some x ↔ (key, x) ∈ m.entries :=
  Entries.lookup_eq_some_iff m.ascending

/-- A map has nothing under a key that is none of its keys. -/
theorem get?_eq_none_iff {m : KeyMap α} {key : String} : m.get? key = none ↔ key ∉ m.keys := by
  constructor
  · intro hNone hMem
    obtain ⟨e, he, rfl⟩ := List.mem_map.mp hMem
    rw [get?_eq_some_iff.mpr he] at hNone
    cases hNone
  · intro hKey
    cases hRow : m.get? key with
    | none => rfl
    | some x => exact absurd (List.mem_map_of_mem (get?_eq_some_iff.mp hRow)) hKey

/-- Maps in which every key finds the same are the same. -/
theorem ext_get? {m n : KeyMap α} (h : ∀ key, m.get? key = n.get? key) : m = n := by
  have : Std.Asymm fun e f : String × α => e.1 < f.1 := ⟨fun _ _ => String.lt_asymm⟩
  refine ext (m.ascending.eq_of_mem_iff n.ascending fun e => ?_)
  rw [← get?_eq_some_iff, ← get?_eq_some_iff, h]

@[simp] theorem ofList_entries (m : KeyMap α) : ofList m.entries = m :=
  ext (Entries.ofList_of_ascending m.ascending)

/-- Of entries under one key, a map has the last. -/
theorem get?_ofList (entries : Entries α) (key : String) :
    (ofList entries).get? key = entries.reverse.lookup key :=
  Entries.lookup_ofList key entries

/-- Sorting keeps every key. -/
theorem mem_keys_ofList {entries : Entries α} {key : String} :
    key ∈ (ofList entries).keys ↔ key ∈ Entries.keys entries := by
  rw [← not_iff_not, ← get?_eq_none_iff, get?_ofList, List.lookup_eq_none_iff, Entries.keys,
    List.mem_map, not_exists]
  simp only [List.mem_reverse, bne_iff_ne, not_and, ne_comm, ne_eq]

end KeyMap

end FoodScan
