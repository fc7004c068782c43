import FoodScan.Proofs.Text.Scan
import FoodScan.Proofs.Toml.Tables
import FoodScan.Toml.Reader

/-!
# Files that are read are well-formed

Whatever the text of a file, no key occurs twice in a table that is read from it, at any depth.

* `Reader.value_wellFormed` — values, by the depth to which they may nest.
* `Reader.lineStep_leaves` — lines preserve `Tables.WellFormed`.
* `Value.WellFormed.settled` — putting dates and times in the place of their long forms leaves the
  keys as they are.

Main result: `parse_wellFormed`.
-/

namespace FoodScan.Toml

open Text

-- ---------------------------------------------------------------------------
-- Numbers, dates and times
-- ---------------------------------------------------------------------------

namespace Number

variable {cs rest : List Char} {v : Value}

/-- An integer is well-formed, in whatever base it is written. -/
theorem based_wellFormed {base : Nat} (h : based? base cs = some (v, rest)) : v.WellFormed := by
  obtain ⟨⟨ds, _⟩, -, h⟩ := Option.bind_eq_some_iff.mp h
  obtain ⟨magnitude, -, h⟩ := Option.bind_eq_some_iff.mp h
  obtain ⟨n, -, h⟩ := Option.bind_eq_some_iff.mp h
  cases h
  exact .integer n

theorem integer_wellFormed (h : integer? cs = some (v, rest)) : v.WellFormed := by
  unfold integer? at h
  split at h
  · exact based_wellFormed h
  · exact based_wellFormed h
  · exact based_wellFormed h
  · obtain ⟨⟨ds, _⟩, -, h⟩ := Option.bind_eq_some_iff.mp h
    obtain ⟨n, -, h⟩ := Option.bind_eq_some_iff.mp h
    cases h
    exact .integer n

/-- A float is well-formed. -/
theorem float_wellFormed (h : float? cs = some (v, rest)) : v.WellFormed := by
  rw [float?] at h
  generalize sign cs = signed at h
  obtain ⟨negative, digits⟩ := signed
  obtain ⟨⟨ds, _⟩, -, h⟩ := Option.bind_eq_some_iff.mp h
  dsimp only at h
  split at h
  · cases h
  · obtain ⟨⟨fs, _⟩, -, h⟩ := Option.bind_eq_some_iff.mp h
    obtain ⟨⟨e, _⟩, -, h⟩ := Option.bind_eq_some_iff.mp h
    dsimp only at h
    split at h
    · cases h
    · cases h
      exact .float _

theorem special_wellFormed (h : special? cs = some (v, rest)) : v.WellFormed := by
  unfold special? at h
  dsimp only at h
  split at h <;> cases h <;> exact .float _

/-- Dates and times are kept as their text. -/
theorem datetime_wellFormed (h : datetime? cs = some (v, rest)) : v.WellFormed := by
  unfold datetime? at h
  split at h
  · split at h <;> cases h <;> exact .datetime _
  · obtain ⟨⟨t, _⟩, -, h⟩ := Option.bind_eq_some_iff.mp h
    cases h
    exact .datetime _

/-- **Scalars** are read well-formed. -/
theorem read_wellFormed (h : read? cs = some (v, rest)) : v.WellFormed := by
  simp only [read?, Option.orElse_eq_some] at h
  obtain h | ⟨-, h | ⟨-, h | ⟨-, h⟩⟩⟩ := h
  · exact datetime_wellFormed h
  · exact float_wellFormed h
  · exact special_wellFormed h
  · exact integer_wellFormed h

end Number

-- ---------------------------------------------------------------------------
-- Values
-- ---------------------------------------------------------------------------

namespace Reader

section

variable {item : List Char → Option (Value × List Char)}

/-- A step of a list adds an item that is well-formed, or ends the list. -/
theorem listStep_leaves (hItem : ∀ cs v rest, item cs = some (v, rest) → v.WellFormed)
    {state : List Value × Bool} {cs : List Char}
    {p : Text.Progress (List Value × Bool) (List Value)}
    (hState : ∀ v ∈ state.1, v.WellFormed) (h : listStep item state cs = some p) :
    Leaves (fun state => ∀ v ∈ state.1, v.WellFormed) (fun items => ∀ v ∈ items, v.WellFormed)
      p := by
  obtain ⟨next, -, h⟩ := Option.bind_eq_some_iff.mp h
  split at h
  · cases h
    exact fun v hv => hState v (List.mem_reverse.mp hv)
  · split at h
    · cases h
    · obtain ⟨⟨v, _⟩, hv, h⟩ := Option.bind_eq_some_iff.mp h
      obtain ⟨after, -, h⟩ := Option.bind_eq_some_iff.mp h
      -- whether another item may follow makes no difference
      split at h <;> cases h <;> exact List.forall_mem_cons.mpr ⟨hItem _ _ _ hv, hState⟩

/-- A pair has the value that was read behind its key. -/
theorem pair_wellFormed (hItem : ∀ cs v rest, item cs = some (v, rest) → v.WellFormed)
    {cs rest : List Char} {p : List String × String × Value}
    (h : pair? item cs = some (p, rest)) : p.2.2.WellFormed := by
  obtain ⟨⟨⟨path, key⟩, _⟩, -, h⟩ := Option.bind_eq_some_iff.mp h
  obtain ⟨_, -, h⟩ := Option.bind_eq_some_iff.mp h
  obtain ⟨⟨v, _⟩, hv, h⟩ := Option.bind_eq_some_iff.mp h
  cases h
  exact hItem _ _ _ hv

/-- A step of an inline table adds a pair whose value is well-formed, or ends the table. -/
theorem pairStep_leaves (hItem : ∀ cs v rest, item cs = some (v, rest) → v.WellFormed)
    {read : List (List String × String × Value)} {cs : List Char}
    {p : Text.Progress (List (List String × String × Value)) (List (List String × String × Value))}
    (hRead : ∀ q ∈ read, q.2.2.WellFormed) (h : pairStep item read cs = some p) :
    Leaves (fun pairs => ∀ q ∈ pairs, q.2.2.WellFormed)
      (fun pairs => ∀ q ∈ pairs, q.2.2.WellFormed) p := by
  obtain ⟨⟨q, _⟩, hq, h⟩ := Option.bind_eq_some_iff.mp h
  have hAll : ∀ p ∈ q :: read, p.2.2.WellFormed :=
    List.forall_mem_cons.mpr ⟨pair_wellFormed hItem hq, hRead⟩
  dsimp only at h
  split at h
  · cases h
    exact hAll
  · cases h
    exact fun q hq => hAll q (List.mem_reverse.mp hq)
  · cases h

/-- So all pairs of an inline table have such values. -/
theorem pairs_wellFormed (hItem : ∀ cs v rest, item cs = some (v, rest) → v.WellFormed)
    {cs rest : List Char} {pairs : List (List String × String × Value)}
    (h : pairs? item cs = some (pairs, rest)) : ∀ q ∈ pairs, q.2.2.WellFormed := by
  unfold pairs? at h
  split at h
  · cases h
    simp
  · exact scan_eq_some (P := fun pairs => ∀ q ∈ pairs, q.2.2.WellFormed)
      (Q := fun pairs => ∀ q ∈ pairs, q.2.2.WellFormed)
      (fun _ _ _ hRead => pairStep_leaves hItem hRead) (by simp) h

end

variable {depth : Nat} {cs rest : List Char} {v : Value}

theorem word_wellFormed {letters : List Char} {word : Value} (hWord : word.WellFormed)
    (h : word? letters word cs = some (v, rest)) : v.WellFormed := by
  rw [word?] at h
  split at h <;> cases h
  exact hWord

/-- **One level.** A value is well-formed if those one level deeper are. -/
theorem value_wellFormed_of_deeper
    (hDeeper : ∀ below, depth = below + 1 → ∀ cs v rest, value? below cs = some (v, rest) →
      v.WellFormed)
    (h : value? depth cs = some (v, rest)) : v.WellFormed := by
  unfold value? at h
  split at h
  · cases h
  · -- a list
    split at h
    · cases h
    · rename_i below
      obtain ⟨⟨items, _⟩, hItems, h⟩ := Option.bind_eq_some_iff.mp h
      cases h
      have hAll : ∀ v ∈ items, v.WellFormed :=
        scan_eq_some (P := fun state => ∀ v ∈ state.1, v.WellFormed)
          (Q := fun items => ∀ v ∈ items, v.WellFormed)
          (fun _ _ _ hState => listStep_leaves (hDeeper below rfl) hState) (by simp) hItems
      exact .array hAll
  · -- an inline table
    split at h
    · cases h
    · rename_i below
      obtain ⟨⟨pairs, _⟩, hPairs, h⟩ := Option.bind_eq_some_iff.mp h
      obtain ⟨table, hTable, h⟩ := Option.bind_eq_some_iff.mp h
      cases h
      exact inlineTable_wellFormed (pairs_wellFormed (hDeeper below rfl) hPairs) hTable
  · -- texts, numbers and words hold nothing further
    split at h
    · obtain ⟨⟨s, _⟩, -, h⟩ := Option.bind_eq_some_iff.mp h
      cases h
      exact .string s
    · split at h
      · exact Number.read_wellFormed h
      · simp only [Option.orElse_eq_some] at h
        obtain h | ⟨-, h | ⟨-, h⟩⟩ := h
        · exact word_wellFormed (.boolean true) h
        · exact word_wellFormed (.boolean false) h
        · exact Number.special_wellFormed h

/-- Every value that is read is well-formed, however deep its tables stand. -/
theorem value_wellFormed (h : value? depth cs = some (v, rest)) : v.WellFormed := by
  induction depth generalizing cs rest v with
  | zero => exact value_wellFormed_of_deeper (fun _ hDepth => absurd hDepth (by omega)) h
  | succ depth ih =>
    refine value_wellFormed_of_deeper (fun below hDepth cs v rest hValue => ?_) h
    obtain rfl := Nat.succ.inj hDepth
    exact ih hValue

-- ---------------------------------------------------------------------------
-- Lines
-- ---------------------------------------------------------------------------

variable {t t' : Tables}

/-- A header opens a table in a document, which stays well-formed. -/
theorem header_wellFormed (ht : t.WellFormed) (h : header? t cs = some (t', rest)) :
    t'.WellFormed := by
  unfold header? at h
  split at h
  · obtain ⟨⟨⟨path, key⟩, _⟩, -, h⟩ := Option.bind_eq_some_iff.mp h
    obtain ⟨_, -, h⟩ := Option.bind_eq_some_iff.mp h
    obtain ⟨_, -, h⟩ := Option.bind_eq_some_iff.mp h
    obtain ⟨opened, hOpened, h⟩ := Option.bind_eq_some_iff.mp h
    obtain ⟨_, -, h⟩ := Option.bind_eq_some_iff.mp h
    cases h
    exact ht.openArrayItem hOpened
  · obtain ⟨⟨⟨path, key⟩, _⟩, -, h⟩ := Option.bind_eq_some_iff.mp h
    obtain ⟨_, -, h⟩ := Option.bind_eq_some_iff.mp h
    obtain ⟨opened, hOpened, h⟩ := Option.bind_eq_some_iff.mp h
    obtain ⟨_, -, h⟩ := Option.bind_eq_some_iff.mp h
    cases h
    exact ht.openTable hOpened

/-- **One line.** -/
theorem lineStep_leaves {p : Text.Progress Tables Tables} (ht : t.WellFormed)
    (h : lineStep t cs = some p) : Leaves Tables.WellFormed Tables.WellFormed p := by
  unfold lineStep at h
  split at h
  · cases h
    exact ht
  · obtain ⟨_, -, h⟩ := Option.bind_eq_some_iff.mp h
    cases h
    exact ht
  · obtain ⟨⟨t', _⟩, hHeader, h⟩ := Option.bind_eq_some_iff.mp h
    cases h
    exact header_wellFormed ht hHeader
  · split at h
    · cases h
      exact ht
    · obtain ⟨⟨⟨path, key, v⟩, _⟩, hPair, h⟩ := Option.bind_eq_some_iff.mp h
      -- the value of a pair is well-formed by itself, and filing it keeps the tables so
      obtain ⟨assigned, hAssigned, h⟩ := Option.bind_eq_some_iff.mp h
      obtain ⟨_, -, h⟩ := Option.bind_eq_some_iff.mp h
      cases h
      have hv : v.WellFormed := pair_wellFormed (fun _ _ _ => value_wellFormed) hPair
      exact ht.assign hv hAssigned

end Reader

-- ---------------------------------------------------------------------------
-- Long forms of dates and times
-- ---------------------------------------------------------------------------

namespace Value

/-- A text that stands for a date and time is one. -/
theorem datetimeOfText_wellFormed {v w : Value} (h : v.datetimeOfText? = some w) :
    w.WellFormed := by
  unfold datetimeOfText? at h
  split at h
  · split at h
    · rename_i d hRead
      cases h
      exact Number.datetime_wellFormed hRead
    · cases h
  · cases h

/-- Settling the dates in a table leaves its keys alone. -/
theorem keys_entriesSettled {entries entries' : List (String × Value)}
    (h : entriesSettled? entries = some entries') :
    Entries.keys entries' = Entries.keys entries := by
  induction entries generalizing entries' with
  | nil =>
    cases h
    rfl
  | cons e rest ih =>
    obtain ⟨key, v⟩ := e
    obtain ⟨w, -, h⟩ := Option.bind_eq_some_iff.mp h
    obtain ⟨rest', hRest, h⟩ := Option.bind_eq_some_iff.mp h
    cases h
    exact congrArg (key :: ·) (ih hRest)

mutual

/-- **Settling dates** keeps values well-formed, by recursion over the value. -/
theorem WellFormed.settled : (v : Value) → v.WellFormed → ∀ w, v.settled? = some w → w.WellFormed
  | .string _, hv, _, h => by cases h; exact hv
  | .integer _, hv, _, h => by cases h; exact hv
  | .float _, hv, _, h => by cases h; exact hv
  | .boolean _, hv, _, h => by cases h; exact hv
  | .datetime _, hv, _, h => by cases h; exact hv
  | .array items, .array hItems, _, h => by
    rw [settled?] at h
    obtain ⟨items', hSettled, h⟩ := Option.bind_eq_some_iff.mp h
    cases h
    exact .array (wellFormed_itemsSettled items hItems items' hSettled)
  | .table [], hv, _, h => by cases h; exact hv
  | .table ((key, v) :: rest), .table hKeys hValues, _, h => by
    rw [settled?] at h
    split at h
    · exact datetimeOfText_wellFormed h
    · -- settling changes values but no key, so keys stay distinct
      obtain ⟨hHead, hRest⟩ := List.forall_mem_cons.mp hValues
      obtain ⟨v', hv', h⟩ := Option.bind_eq_some_iff.mp h
      obtain ⟨rest', hRest', h⟩ := Option.bind_eq_some_iff.mp h
      cases h
      have hSameKeys : Entries.keys ((key, v') :: rest') = Entries.keys ((key, v) :: rest) :=
        congrArg (key :: ·) (keys_entriesSettled hRest')
      exact .table (hSameKeys ▸ hKeys) (List.forall_mem_cons.mpr
        ⟨WellFormed.settled v hHead v' hv', wellFormed_entriesSettled rest hRest rest' hRest'⟩)

/-- Settling dates keeps the items of a list well-formed. -/
theorem wellFormed_itemsSettled : (items : List Value) → (∀ v ∈ items, v.WellFormed) →
    ∀ items', itemsSettled? items = some items' → ∀ v ∈ items', v.WellFormed
  | [], _, _, h => by cases h; simp
  | v :: rest, hItems, _, h => by
    obtain ⟨hHead, hRest⟩ := List.forall_mem_cons.mp hItems
    rw [itemsSettled?] at h
    obtain ⟨v', hv', h⟩ := Option.bind_eq_some_iff.mp h
    obtain ⟨rest', hRest', h⟩ := Option.bind_eq_some_iff.mp h
    cases h
    exact List.forall_mem_cons.mpr
      ⟨WellFormed.settled v hHead v' hv', wellFormed_itemsSettled rest hRest rest' hRest'⟩

/-- Settling dates keeps the entries of a table well-formed. -/
theorem wellFormed_entriesSettled : (entries : List (String × Value)) →
    (∀ e ∈ entries, e.2.WellFormed) →
      ∀ entries', entriesSettled? entries = some entries' → ∀ e ∈ entries', e.2.WellFormed
  | [], _, _, h => by cases h; simp
  | (_, v) :: rest, hEntries, _, h => by
    obtain ⟨hHead, hRest⟩ := List.forall_mem_cons.mp hEntries
    rw [entriesSettled?] at h
    obtain ⟨v', hv', h⟩ := Option.bind_eq_some_iff.mp h
    obtain ⟨rest', hRest', h⟩ := Option.bind_eq_some_iff.mp h
    cases h
    exact List.forall_mem_cons.mpr
      ⟨WellFormed.settled v hHead v' hv', wellFormed_entriesSettled rest hRest rest' hRest'⟩

end

end Value

/-- **Files.** Every value that is read from a file is well-formed. -/
theorem parse_wellFormed {text : String} {v : Value} (h : parse text = some v) :
    v.WellFormed := by
  obtain ⟨⟨tables, _⟩, hLines, h⟩ := Option.bind_eq_some_iff.mp h
  obtain ⟨raw, hRaw, hSettled⟩ := Option.bind_eq_some_iff.mp h
  have hTables : tables.WellFormed :=
    scan_eq_some (P := Tables.WellFormed) (Q := Tables.WellFormed)
      (fun _ _ _ ht => Reader.lineStep_leaves ht) Tables.wellFormed_start hLines
  exact (hTables.finish hRaw).settled raw v hSettled

end FoodScan.Toml
