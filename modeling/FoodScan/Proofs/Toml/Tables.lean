import FoodScan.Proofs.KeyMap
import FoodScan.Proofs.Traversal
import FoodScan.Toml.Table

/-!
# Tables have distinct keys

`Value.WellFormed` says that no key occurs twice in a table, at any depth. Tables under construction
keep to it as well, and most operations look a key up before they file a node under it. Closing a
table does not: it is filed at the end of a path that was looked at when the table was opened. So
what lines preserve (`Tables.WellFormed`) is that the open table can be closed, whatever it holds by
then, and `Nodes.changeAt_changeAt` is what makes opening a table establish that: a second change at
a path finds what the first one left there.

Main results: `Tables.WellFormed.openTable`, `Tables.WellFormed.openArrayItem`,
`Tables.WellFormed.assign` — every kind of line preserves it; `inlineTable_wellFormed` and
`Tables.WellFormed.finish` — so inline tables and the table of a file are well-formed.
-/

namespace FoodScan.Toml

-- ---------------------------------------------------------------------------
-- Well-formed values
-- ---------------------------------------------------------------------------

/-- The keys of every table are distinct. -/
inductive Value.WellFormed : Value → Prop
  | string (s : String) : WellFormed (.string s)
  | integer (n : Int64) : WellFormed (.integer n)
  | float (x : Binary64) : WellFormed (.float x)
  | boolean (b : Bool) : WellFormed (.boolean b)
  | datetime (d : Datetime) : WellFormed (.datetime d)
  | array {items : List Value} (hItems : ∀ v ∈ items, WellFormed v) : WellFormed (.array items)
  | table {entries : List (String × Value)} (hKeys : (Entries.keys entries).Nodup)
    (hValues : ∀ e ∈ entries, WellFormed e.2) : WellFormed (.table entries)

/-- The keys of every table in a node are distinct. -/
inductive Node.WellFormed : Node → Prop
  | value {v : Value} (h : v.WellFormed) : WellFormed (.value v)
  | table {implicit dotted : Bool} {entries : List (String × Node)}
    (hKeys : (Entries.keys entries).Nodup) (hNodes : ∀ e ∈ entries, WellFormed e.2) :
    WellFormed (.table implicit dotted entries)
  | tables {items : List (List (String × Node))}
    (hKeys : ∀ entries ∈ items, (Entries.keys entries).Nodup)
    (hNodes : ∀ entries ∈ items, ∀ e ∈ entries, WellFormed e.2) : WellFormed (.tables items)

/-- The keys of the entries are distinct, and those of every table in them. -/
structure Nodes.WellFormed (nodes : Nodes) : Prop where
  keys : (Entries.keys nodes).Nodup
  each : ∀ e ∈ nodes, e.2.WellFormed

theorem Node.wellFormed_table_iff {implicit dotted : Bool} {entries : List (String × Node)} :
    (Node.table implicit dotted entries).WellFormed ↔ Nodes.WellFormed entries :=
  ⟨fun | .table hKeys hNodes => ⟨hKeys, hNodes⟩, fun h => .table h.keys h.each⟩

theorem Node.wellFormed_tables_iff {items : List (List (String × Node))} :
    (Node.tables items).WellFormed ↔ ∀ entries ∈ items, Nodes.WellFormed entries :=
  ⟨fun | .tables hKeys hNodes => fun entries h => ⟨hKeys entries h, hNodes entries h⟩,
    fun h => .tables (fun entries hMem => (h entries hMem).keys)
      (fun entries hMem => (h entries hMem).each)⟩

-- ---------------------------------------------------------------------------
-- The end of a file
-- ---------------------------------------------------------------------------

namespace Node

/-- A table that is finished has the keys that it had. -/
theorem keys_finishEntries (entries : List (String × Node)) :
    Entries.keys (finishEntries entries) = Entries.keys entries := by
  induction entries with
  | nil => rfl
  | cons e rest ih =>
    obtain ⟨key, node⟩ := e
    exact congrArg (key :: ·) ih

mutual

/-- **Finished nodes** are well-formed values, by recursion over the node. -/
theorem WellFormed.finish : (node : Node) → node.WellFormed → node.finish.WellFormed
  | .value _, .value h => h
  | .table _ _ entries, .table hKeys hNodes =>
    .table (keys_finishEntries entries ▸ hKeys) (wellFormed_finishEntries entries hNodes)
  | .tables items, .tables hKeys hNodes => .array (wellFormed_finishTables items hKeys hNodes)

theorem wellFormed_finishEntries : (entries : List (String × Node)) →
    (∀ e ∈ entries, e.2.WellFormed) → ∀ e ∈ finishEntries entries, e.2.WellFormed
  | [], _ => by simp [finishEntries]
  | (_, node) :: rest, h => by
    obtain ⟨hHead, hRest⟩ := List.forall_mem_cons.mp h
    rw [finishEntries, List.forall_mem_cons]
    exact ⟨WellFormed.finish node hHead, wellFormed_finishEntries rest hRest⟩

/-- So are the tables of a list. -/
theorem wellFormed_finishTables : (items : List (List (String × Node))) →
    (∀ entries ∈ items, (Entries.keys entries).Nodup) →
      (∀ entries ∈ items, ∀ e ∈ entries, e.2.WellFormed) → ∀ v ∈ finishTables items, v.WellFormed
  | [], _, _ => by simp [finishTables]
  | entries :: rest, hKeys, hNodes => by
    obtain ⟨hHeadKeys, hRestKeys⟩ := List.forall_mem_cons.mp hKeys
    obtain ⟨hHead, hRest⟩ := List.forall_mem_cons.mp hNodes
    rw [finishTables, List.forall_mem_cons]
    exact ⟨.table (keys_finishEntries entries ▸ hHeadKeys) (wellFormed_finishEntries entries hHead),
      wellFormed_finishTables rest hRestKeys hRest⟩

end

end Node

/-- A whole table is finished as a well-formed value. -/
theorem Nodes.WellFormed.finish {nodes : Nodes} (h : Nodes.WellFormed nodes) :
    (Value.table (Node.finishEntries nodes)).WellFormed :=
  Node.WellFormed.finish (.table false false nodes) (.table h.keys h.each)

-- ---------------------------------------------------------------------------
-- Filing nodes
-- ---------------------------------------------------------------------------

namespace Nodes

variable {nodes nodes' : Nodes} {key : String} {node : Node}

theorem wellFormed_nil : WellFormed [] := ⟨List.nodup_nil, by simp⟩

/-- What is found in a well-formed table is well-formed. -/
theorem WellFormed.of_lookup (h : WellFormed nodes) (hLookup : nodes.lookup key = some node) :
    node.WellFormed :=
  h.each (key, node) (Entries.mem_of_lookup_eq_some hLookup)

/-- A key under which nothing is found is none. -/
theorem not_mem_keys_of_lookup (h : nodes.lookup key = none) : key ∉ Entries.keys nodes := by
  intro hMem
  obtain ⟨e, he, rfl⟩ := List.mem_map.mp hMem
  simpa using List.lookup_eq_none_iff.mp h e he

/-- A new key may be added behind the others. -/
theorem nodup_keys_append (hKeys : (Entries.keys nodes).Nodup) (hNew : nodes.lookup key = none) :
    (Entries.keys (nodes ++ [(key, node)])).Nodup := by
  rw [Entries.keys, List.map_append, List.nodup_append]
  refine ⟨hKeys, List.nodup_singleton _, ?_⟩
  rintro _ hKey _ hLast rfl
  rw [List.mem_singleton.mp hLast] at hKey
  exact not_mem_keys_of_lookup hNew hKey

/-- A well-formed node may be added under a new key. -/
theorem WellFormed.append (h : WellFormed nodes) (hNew : nodes.lookup key = none)
    (hNode : node.WellFormed) : WellFormed (nodes ++ [(key, node)]) where
  keys := nodup_keys_append h.keys hNew
  each e he := by
    rcases List.mem_append.mp he with he | he
    · exact h.each e he
    · exact List.mem_singleton.mp he ▸ hNode

/-- Replacing a node leaves the keys as they are. -/
theorem keys_replace (key : String) (node : Node) (nodes : Nodes) :
    Entries.keys (replace key node nodes) = Entries.keys nodes := by
  rw [Entries.keys, replace, List.map_map]
  refine List.map_congr_left fun e _ => ?_
  by_cases hKey : e.1 = key
  · simp [hKey]
  · simp [hKey]

/-- What was filed under the key does not matter. -/
theorem wellFormed_replace (hKeys : (Entries.keys nodes).Nodup)
    (hOthers : ∀ e ∈ nodes, e.1 ≠ key → e.2.WellFormed) (hNode : node.WellFormed) :
    WellFormed (replace key node nodes) where
  keys := keys_replace key node nodes ▸ hKeys
  each e he := by
    obtain ⟨f, hf, rfl⟩ := List.mem_map.mp he
    by_cases hKey : f.1 = key
    · rwa [if_pos hKey]
    · rw [if_neg hKey]
      exact hOthers f hf hKey

/-- A node may be replaced by a well-formed one. -/
theorem WellFormed.replace (h : WellFormed nodes) (hNode : node.WellFormed) :
    WellFormed (replace key node nodes) :=
  wellFormed_replace h.keys (fun e he _ => h.each e he) hNode

theorem WellFormed.remove (h : WellFormed nodes) : WellFormed (remove key nodes) where
  keys := h.keys.sublist (List.filter_sublist.map _)
  each e he := h.each e (List.mem_of_mem_filter he)

/-- Nodes under other keys were there before. -/
theorem mem_of_mem_replace {e : String × Node} (he : e ∈ replace key node nodes)
    (hOther : e.1 ≠ key) : e ∈ nodes := by
  obtain ⟨f, hf, rfl⟩ := List.mem_map.mp he
  by_cases hKey : f.1 = key
  · simp [hKey] at hOther
  · rwa [if_neg hKey]

/-- A key that was taken away is not found. -/
theorem lookup_remove : (remove key nodes).lookup key = none := by
  rw [List.lookup_eq_none_iff]
  intro e he
  have hKey : e.1 ≠ key := by simpa using List.of_mem_filter he
  simpa using hKey.symm

/-- A node that was added is found under its key. -/
theorem lookup_append_new (hNew : nodes.lookup key = none) :
    (nodes ++ [(key, node)]).lookup key = some node := by
  simp [List.lookup_append, hNew]

/-- A node that was replaced is found as what replaced it. -/
theorem lookup_replace {old : Node} (h : nodes.lookup key = some old) :
    (replace key node nodes).lookup key = some node := by
  induction nodes with
  | nil => cases h
  | cons e rest ih =>
    rw [replace, List.map_cons, ← replace]
    by_cases hKey : e.1 = key
    · simp [hKey]
    · have hb : (key == e.1) = false := beq_eq_false_iff_ne.mpr (Ne.symm hKey)
      rw [List.lookup_cons, hb] at h
      rw [if_neg hKey, List.lookup_cons, hb]
      exact ih h

-- ---------------------------------------------------------------------------
-- Changes at the end of a path
-- ---------------------------------------------------------------------------

section ChangeAt

variable {α β : Type} {byDots dotted : Bool} {path : List String} {a : α} {b : β}
  {change : Bool → Nodes → Option (Nodes × α)}

/-- The three ways in which a path goes on: through a table that comes into being, through one that
is there, and through the last of an array of tables. -/
theorem changeAt_cons
    (h : changeAt byDots change (key :: path) dotted nodes = some (nodes', a)) :
    (nodes.lookup key = none ∧ ∃ inner, changeAt byDots change path byDots [] = some (inner, a) ∧
      nodes' = nodes ++ [(key, .table true byDots inner)]) ∨
    (∃ implicit dotted' inner inner', nodes.lookup key = some (.table implicit dotted' inner) ∧
      changeAt byDots change path dotted' inner = some (inner', a) ∧
      nodes' = replace key (.table implicit dotted' inner') nodes) ∨
    (∃ before last last', nodes.lookup key = some (.tables (before ++ [last])) ∧
      changeAt byDots change path false last = some (last', a) ∧
      nodes' = replace key (.tables (before ++ [last'])) nodes) := by
  rw [changeAt] at h
  split at h
  · rename_i hLookup
    obtain ⟨⟨inner, _⟩, hInner, h⟩ := Option.bind_eq_some_iff.mp h
    cases h
    exact .inl ⟨hLookup, inner, hInner, rfl⟩
  · cases h
  · rename_i implicit dotted' inner hLookup
    split at h
    · cases h
    · obtain ⟨⟨inner', _⟩, hInner, h⟩ := Option.bind_eq_some_iff.mp h
      cases h
      exact .inr (.inl ⟨implicit, dotted', inner, inner', hLookup, hInner, rfl⟩)
  · rename_i items hLookup
    split at h
    · cases h
    · rename_i last hLast
      obtain ⟨⟨last', _⟩, hInner, h⟩ := Option.bind_eq_some_iff.mp h
      cases h
      -- a header leads on into the last table of an array
      have hItems : items = items.dropLast ++ [last] :=
        (List.dropLast_append_getLast? last hLast).symm
      exact .inr (.inr ⟨items.dropLast, last, last', hItems ▸ hLookup, hInner, rfl⟩)

/-- **One change.** What a change keeps at the end of the path is kept all the way up. -/
theorem changeAt_wellFormed {P : α → Prop}
    (hChange : ∀ dotted nodes nodes' a, WellFormed nodes →
      change dotted nodes = some (nodes', a) → WellFormed nodes' ∧ P a)
    (hNodes : WellFormed nodes) (h : changeAt byDots change path dotted nodes = some (nodes', a)) :
    WellFormed nodes' ∧ P a := by
  -- the induction is on the keys of the path; what is changed at its end is put back at each key
  induction path generalizing dotted nodes nodes' with
  | nil => exact hChange dotted nodes nodes' a hNodes h
  | cons key path ih =>
    obtain ⟨hNew, inner, hInner, rfl⟩ | ⟨implicit, dotted', inner, inner', hLookup, hInner, rfl⟩ |
      ⟨before, last, last', hLookup, hInner, rfl⟩ := changeAt_cons h
    · obtain ⟨hWell, ha⟩ := ih wellFormed_nil hInner
      exact ⟨hNodes.append hNew (Node.wellFormed_table_iff.mpr hWell), ha⟩
    · obtain ⟨hWell, ha⟩ := ih (Node.wellFormed_table_iff.mp (hNodes.of_lookup hLookup)) hInner
      exact ⟨hNodes.replace (Node.wellFormed_table_iff.mpr hWell), ha⟩
    · have hItems := Node.wellFormed_tables_iff.mp (hNodes.of_lookup hLookup)
      obtain ⟨hBefore, hLast⟩ := List.forall_mem_append.mp hItems
      obtain ⟨hWell, ha⟩ := ih (hLast last List.mem_cons_self) hInner
      refine ⟨hNodes.replace (Node.wellFormed_tables_iff.mpr ?_), ha⟩
      exact List.forall_mem_append.mpr ⟨hBefore, List.forall_mem_singleton.mpr hWell⟩

/-- **Two changes.** A second change at a path finds what the first one left at its end, so it is
enough that the two keep keys distinct together. -/
theorem changeAt_changeAt {second : Bool → Nodes → Option (Nodes × β)} {between : Nodes}
    {dotted' : Bool}
    (hChanges : ∀ dotted dotted' nodes between nodes' a b, WellFormed nodes →
      change dotted nodes = some (between, a) → second dotted' between = some (nodes', b) →
      WellFormed nodes')
    (hNodes : WellFormed nodes)
    (hFirst : changeAt byDots change path dotted nodes = some (between, a))
    (hSecond : changeAt byDots second path dotted' between = some (nodes', b)) :
    WellFormed nodes' := by
  induction path generalizing dotted dotted' nodes between nodes' with
  | nil => exact hChanges dotted dotted' nodes between nodes' a b hNodes hFirst hSecond
  | cons key path ih =>
    have hSecond := changeAt_cons hSecond
    -- in each case the key now stands for what the first change left, and for that only
    obtain ⟨hNew, inner, hInner, rfl⟩ | ⟨implicit, dotted', inner, inner', hLookup, hInner, rfl⟩ |
      ⟨before, last, last', hLookup, hInner, rfl⟩ := changeAt_cons hFirst
    · rw [lookup_append_new hNew] at hSecond
      obtain ⟨⟨⟩, -⟩ | ⟨_, _, _, inner', ⟨⟩, hInner', rfl⟩ | ⟨_, _, _, ⟨⟩, -⟩ := hSecond
      have hWell := ih wellFormed_nil hInner hInner'
      refine wellFormed_replace (nodup_keys_append hNodes.keys hNew) (fun e he hOther => ?_)
        (Node.wellFormed_table_iff.mpr hWell)
      rcases List.mem_append.mp he with he | he
      · exact hNodes.each e he
      · exact absurd (congrArg Prod.fst (List.mem_singleton.mp he)) hOther
    · rw [lookup_replace hLookup] at hSecond
      obtain ⟨⟨⟩, -⟩ | ⟨_, _, _, inner'', ⟨⟩, hInner', rfl⟩ | ⟨_, _, _, ⟨⟩, -⟩ := hSecond
      have hWell := ih (Node.wellFormed_table_iff.mp (hNodes.of_lookup hLookup)) hInner hInner'
      exact wellFormed_replace ((keys_replace key _ nodes).symm ▸ hNodes.keys)
        (fun e he hOther => hNodes.each e (mem_of_mem_replace he hOther))
        (Node.wellFormed_table_iff.mpr hWell)
    · rw [lookup_replace hLookup] at hSecond
      obtain ⟨⟨⟩, -⟩ | ⟨_, _, _, _, ⟨⟩, -⟩ | ⟨before', last', last'', hSame, hInner', rfl⟩ :=
        hSecond
      obtain ⟨rfl, hLast'⟩ := List.append_inj' (Node.tables.inj (Option.some.inj hSame)) rfl
      obtain rfl := List.singleton_inj.mp hLast'
      obtain ⟨hBefore, hLast⟩ := List.forall_mem_append.mp
        (Node.wellFormed_tables_iff.mp (hNodes.of_lookup hLookup))
      have hWell := ih (hLast last List.mem_cons_self) hInner hInner'
      refine wellFormed_replace ((keys_replace key _ nodes).symm ▸ hNodes.keys)
        (fun e he hOther => hNodes.each e (mem_of_mem_replace he hOther))
        (Node.wellFormed_tables_iff.mpr ?_)
      exact List.forall_mem_append.mpr ⟨hBefore, List.forall_mem_singleton.mpr hWell⟩

end ChangeAt

/-- A dotted key is assigned a value only if it is new. -/
theorem assign_wellFormed {path : List String} {v : Value} (hNodes : WellFormed nodes)
    (hv : v.WellFormed) (h : assign path key v nodes = some nodes') : WellFormed nodes' := by
  obtain ⟨⟨_, ⟨⟩⟩, hChanged, h⟩ := Option.bind_eq_some_iff.mp h
  cases h
  refine (changeAt_wellFormed (P := fun _ => True) ?_ hNodes hChanged).1
  intro dotted nodes nodes' _ hNodes h
  split at h
  · cases h
  · split at h
    · cases h
    · rename_i hNew
      cases h
      exact ⟨hNodes.append (Option.not_isSome_iff_eq_none.mp hNew) (.value hv), trivial⟩

end Nodes

/-- An inline table of well-formed values is well-formed. -/
theorem inlineTable_wellFormed {pairs : List (List String × String × Value)} {v : Value}
    (hPairs : ∀ p ∈ pairs, p.2.2.WellFormed) (h : inlineTable pairs = some v) : v.WellFormed := by
  obtain ⟨nodes, hNodes, h⟩ := Option.bind_eq_some_iff.mp h
  cases h
  -- the pairs are filed one by one from any table that is well-formed
  have hFold : ∀ start, Nodes.WellFormed start →
      pairs.foldlM (fun nodes p => Nodes.assign p.1 p.2.1 p.2.2 nodes) start = some nodes →
        Nodes.WellFormed nodes := by
    clear hNodes h
    induction pairs with
    | nil =>
      intro start hStart h
      exact Option.some.inj h ▸ hStart
    | cons p rest ih =>
      intro start hStart h
      obtain ⟨hHead, hRest⟩ := List.forall_mem_cons.mp hPairs
      rw [List.foldlM_cons] at h
      obtain ⟨next, hNext, h⟩ := Option.bind_eq_some_iff.mp h
      exact ih hRest next (Nodes.assign_wellFormed hStart hHead hNext) h
  exact (hFold [] Nodes.wellFormed_nil hNodes).finish

-- ---------------------------------------------------------------------------
-- Lines
-- ---------------------------------------------------------------------------

namespace Tables

/-- The open table has distinct keys, and once it is closed, with whatever entries, so has every
table of the file. -/
structure WellFormed (t : Tables) : Prop where
  current : Nodes.WellFormed t.current
  close : ∀ current nodes, Nodes.WellFormed current → { t with current }.close = some nodes →
    Nodes.WellFormed nodes

variable {t t' : Tables} {path : List String} {key : String}

theorem wellFormed_start : start.WellFormed where
  current := Nodes.wellFormed_nil
  close _ _ hCurrent h := Option.some.inj h ▸ hCurrent

/-- Closing the current table leaves a well-formed document. -/
theorem WellFormed.closed (ht : t.WellFormed) {nodes : Nodes} (h : t.close = some nodes) :
    Nodes.WellFormed nodes :=
  ht.close t.current nodes ht.current h

/-- **Pairs.** -/
theorem WellFormed.assign {v : Value} (ht : t.WellFormed) (hv : v.WellFormed)
    (h : t.assign path key v = some t') : t'.WellFormed := by
  obtain ⟨current, hCurrent, h⟩ := Option.bind_eq_some_iff.mp h
  cases h
  exact ⟨Nodes.assign_wellFormed ht.current hv hCurrent, ht.close⟩

/-- **Headers.** When the table is opened its key is free, or freed, and closing it finds it so. -/
theorem WellFormed.openTable (ht : t.WellFormed) (h : t.openTable path key = some t') :
    t'.WellFormed := by
  obtain ⟨closed, hClosed, h⟩ := Option.bind_eq_some_iff.mp h
  obtain ⟨⟨closed', current⟩, hOpened, h⟩ := Option.bind_eq_some_iff.mp h
  cases h
  have hNodes := ht.closed hClosed
  refine ⟨(Nodes.changeAt_wellFormed ?_ hNodes hOpened).2, fun filled nodes hFilled hClose => ?_⟩
  · intro _ nodes nodes' current hNodes h
    split at h
    · cases h
      exact ⟨hNodes, Nodes.wellFormed_nil⟩
    · rename_i inner hLookup
      cases h
      exact ⟨hNodes.remove, Node.wellFormed_table_iff.mp (hNodes.of_lookup hLookup)⟩
    · cases h
  · -- closing the table puts it where it was taken from, or where none was
    obtain ⟨⟨_, ⟨⟩⟩, hAppended, h⟩ := Option.bind_eq_some_iff.mp hClose
    cases h
    refine Nodes.changeAt_changeAt ?_ hNodes hOpened hAppended
    intro _ _ nodes between nodes' _ _ hNodes hFirst hSecond
    cases hSecond
    split at hFirst
    · rename_i hNew
      cases hFirst
      exact hNodes.append hNew (Node.wellFormed_table_iff.mpr hFilled)
    · cases hFirst
      exact hNodes.remove.append Nodes.lookup_remove (Node.wellFormed_table_iff.mpr hFilled)
    · cases hFirst

/-- **Headers of arrays of tables.** The key is looked up again when the table is closed. -/
theorem WellFormed.openArrayItem (ht : t.WellFormed) (h : t.openArrayItem path key = some t') :
    t'.WellFormed := by
  obtain ⟨closed, hClosed, h⟩ := Option.bind_eq_some_iff.mp h
  obtain ⟨⟨closed', ⟨⟩⟩, hOpened, h⟩ := Option.bind_eq_some_iff.mp h
  cases h
  refine ⟨Nodes.wellFormed_nil, fun filled nodes hFilled hClose => ?_⟩
  obtain ⟨⟨_, ⟨⟩⟩, hAppended, h⟩ := Option.bind_eq_some_iff.mp hClose
  cases h
  -- opening an item only looks at what is there
  have hBetween : Nodes.WellFormed closed' := by
    refine (Nodes.changeAt_wellFormed (P := fun _ => True) ?_ (ht.closed hClosed) hOpened).1
    intro _ nodes nodes' _ hNodes h
    split at h <;> cases h <;> exact ⟨hNodes, trivial⟩
  refine (Nodes.changeAt_wellFormed (P := fun _ => True) ?_ hBetween hAppended).1
  intro _ nodes nodes' _ hNodes h
  split at h
  · rename_i hNew
    cases h
    exact ⟨hNodes.append hNew (Node.wellFormed_tables_iff.mpr (by simpa using hFilled)), trivial⟩
  · rename_i items hLookup
    cases h
    have hItems := Node.wellFormed_tables_iff.mp (hNodes.of_lookup hLookup)
    refine ⟨hNodes.replace (Node.wellFormed_tables_iff.mpr ?_), trivial⟩
    exact List.forall_mem_append.mpr ⟨hItems, List.forall_mem_singleton.mpr hFilled⟩
  · cases h

/-- **The end of the file.** -/
theorem WellFormed.finish {v : Value} (ht : t.WellFormed) (h : t.finish = some v) :
    v.WellFormed := by
  obtain ⟨nodes, hNodes, h⟩ := Option.bind_eq_some_iff.mp h
  cases h
  exact (ht.closed hNodes).finish

end Tables

end FoodScan.Toml
