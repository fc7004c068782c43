import FoodScan.Proofs.Record.FirstOffender

/-!
# The last definition counts

A document may define a name several times, by itself and in its tables. The field of that name is
the row of the definition that is read last, and there are no other fields: a table is none unless
something defines its name. The order of reading is that of the bytes of the keys on the way to a
value, so a document's own definition beats that in a table or is beaten by it, according to how the
name and the table are spelled.

* `Definition.lookup_reverse_eq_some_iff` — looking a name up from behind finds its last definition.
* `Flattening.get?_eq_some_iff` — the field of that name is its row.
* `Flattening.of_same_definitions` — where a name has one value, it does not matter where it stands.

Main result: `fields_are_last_definitions`.
-/

namespace FoodScan

namespace Definition

variable {members members' : List (String × Json)} {name : String} {v : Json}

/-- A document gives a name a value, by itself or in one of its tables. -/
def Defines (members : List (String × Json)) (name : String) (v : Json) : Prop :=
  ∃ d, Of members d ∧ d.field = name ∧ d.value = v

/-- The definition of a name that is read after all others. -/
structure LastOf (members : List (String × Json)) (name : String) (d : Definition) : Prop where
  of : Of members d
  field : d.field = name
  last : ∀ e, Of members e → e.field = name → e = d ∨ e.Before d

/-- Defining in a document is being among its listed definitions. -/
theorem defines_iff : Defines members name v ↔ (name, v) ∈ definitions members := by
  rw [definitions_eq_map, List.mem_map]
  simp only [Defines, mem_listed_iff, Prod.mk.injEq]

/-- A name is defined when some definition bears it. -/
theorem exists_defines_iff :
    (∃ v, Defines members name v) ↔ name ∈ Entries.keys (definitions members) := by
  simp only [defines_iff, Entries.keys, List.mem_map, Prod.exists, exists_eq_right,
    exists_and_right]

-- ---------------------------------------------------------------------------
-- Looking a name up from behind
-- ---------------------------------------------------------------------------

theorem lookup_map_eq (ds : List Definition) (name : String) :
    (ds.map fun d => (d.field, d.value)).lookup name =
      (ds.find? fun d => name == d.field).map value := by
  induction ds with
  | nil => rfl
  | cons d rest ih =>
    rw [List.map_cons, List.lookup_cons, List.find?_cons, ih]
    cases name == d.field <;> rfl

/-- The last definition of a name is the first met from the end of the list. -/
theorem find?_reverse_listed_eq_some_iff {d : Definition}
    (hDoc : (Json.object members).Canonical) :
    (listed members).reverse.find? (fun e => name == e.field) = some d ↔
      LastOf members name d := by
  have hOrder := pairwise_listed hDoc
  rw [List.find?_eq_some_iff_append]
  constructor
  · rintro ⟨hName, after, before, hSplit, hAfter⟩
    have hListed : listed members = before.reverse ++ d :: after.reverse := by
      rw [← List.reverse_reverse (listed members), hSplit]
      simp
    rw [hListed] at hOrder
    refine ⟨mem_listed_iff.mp (by simp [hListed]), (eq_of_beq hName).symm, fun e he hField => ?_⟩
    rw [← mem_listed_iff, hListed] at he
    -- another definition of the name stands before this one, or is this one: those behind it bear
    -- other names
    rcases List.mem_append.mp he with hBefore | hRest
    · exact .inr ((mem_before_iff hOrder).mp hBefore).2
    · rcases List.mem_cons.mp hRest with rfl | hLater
      · exact .inl rfl
      · have hOther := hAfter e (List.mem_reverse.mp hLater)
        rw [hField] at hOther
        simp at hOther
  · intro h
    obtain ⟨before, after, hListed⟩ := List.append_of_mem (mem_listed_iff.mpr h.of)
    refine ⟨by simp [h.field], after.reverse, before.reverse, by simp [hListed], ?_⟩
    intro e he
    -- what stands behind comes later, and so cannot come before
    have hLater : d.Before e := by
      rw [hListed] at hOrder
      exact (List.pairwise_cons.mp (List.pairwise_append.mp hOrder).2.1).1 e
        (List.mem_reverse.mp he)
    have hOf : Of members e := by
      rw [← mem_listed_iff, hListed]
      simp [List.mem_reverse.mp he]
    by_contra hSame
    have hField : name = e.field := by simpa using hSame
    rcases h.last e hOf hField.symm with rfl | hEarlier
    · exact hLater.asymm hLater
    · exact hLater.asymm hEarlier

/-- **Look-ups.** The last entry under a name is its last definition. -/
theorem lookup_reverse_eq_some_iff (hDoc : (Json.object members).Canonical) :
    (definitions members).reverse.lookup name = some v ↔
      ∃ d, LastOf members name d ∧ d.value = v := by
  rw [definitions_eq_map, ← List.map_reverse, lookup_map_eq, Option.map_eq_some_iff]
  simp only [find?_reverse_listed_eq_some_iff hDoc]

/-- Where names have one value each, it does not matter which definition is the last. -/
theorem lookup_reverse_eq_some_iff_of_single
    (hSingle : ∀ name v w, Defines members name v → Defines members name w → v = w) :
    (definitions members).reverse.lookup name = some v ↔ Defines members name v := by
  have hMem : ∀ {w}, (definitions members).reverse.lookup name = some w →
      Defines members name w := fun hw =>
    defines_iff.mpr (List.mem_reverse.mp (Entries.mem_of_lookup_eq_some hw))
  -- the name has a definition, so the lookup finds one, and there is only one to find
  refine ⟨hMem, fun h => ?_⟩
  cases hLookup : (definitions members).reverse.lookup name with
  | some w => rw [hSingle name w v (hMem hLookup) h]
  | none =>
    have hNone := List.lookup_eq_none_iff.mp hLookup (name, v)
      (List.mem_reverse.mpr (defines_iff.mp h))
    simp at hNone

end Definition

-- ---------------------------------------------------------------------------
-- The record of a document
-- ---------------------------------------------------------------------------

namespace Flattening

variable {members members' : List (String × Json)} {path : String} {r r' : Record}
  {rows rows' : Entries Row}

/-- **Fields.** A field is the row of the last definition of its name. -/
theorem get?_eq_some_iff (h : Flattening members path r rows)
    (hDoc : (Json.object members).Canonical) {name : String} {row : Row} :
    r.fields.get? name = some row ↔
      ∃ d, Definition.LastOf members name d ∧ Row.Reads d.value row := by
  rw [h.get?_eq, Option.bind_eq_some_iff]
  simp only [Definition.lookup_reverse_eq_some_iff hDoc, toOption_eq_some_iff,
    Row.ofJson_eq_ok_iff]
  constructor
  · rintro ⟨_, ⟨d, hLast, rfl⟩, hReads⟩
    exact ⟨d, hLast, hReads⟩
  · rintro ⟨d, hLast, hReads⟩
    exact ⟨_, ⟨d, hLast, rfl⟩, hReads⟩

/-- The identifier is the document's own. -/
theorem lookup_identifierField (h : Flattening members path r rows) :
    members.lookup identifierField = some (.number (.integer r.identifier.toInt)) := by
  obtain ⟨v, hLookup, hInt⟩ := Option.bind_eq_some_iff.mp h.identifier
  cases v with
  | number n =>
    cases n with
    | integer i => rw [hLookup, int64?_eq_some_iff.mp hInt]
    | float x => cases hInt
  | _ => cases hInt

/-- **Tables do not matter.** Documents with the same identifier that give the same names the same
values, one value to a name, have the same record. -/
theorem of_same_definitions (h : Flattening members path r rows)
    (h' : Flattening members' path r' rows')
    (hId : members'.lookup identifierField = members.lookup identifierField)
    (hSame : ∀ name v, Definition.Defines members' name v ↔ Definition.Defines members name v)
    (hSingle : ∀ name v w, Definition.Defines members name v →
      Definition.Defines members name w → v = w) : r' = r := by
  have hSingle' : ∀ name v w, Definition.Defines members' name v →
      Definition.Defines members' name w → v = w := by
    simp only [hSame]
    exact hSingle
  -- identifier, fields and source agree one by one
  have hIdentifier : r'.identifier = r.identifier := by
    have hBoth := h'.identifier
    rw [hId, h.identifier] at hBoth
    exact (Option.some.inj hBoth).symm
  have hFields : r'.fields = r.fields := by
    refine KeyMap.ext_get? fun name => ?_
    -- where a name has one value only, it does not matter which definition is last
    have hLookup : (definitions members').reverse.lookup name =
        (definitions members).reverse.lookup name := by
      ext v
      rw [Definition.lookup_reverse_eq_some_iff_of_single hSingle',
        Definition.lookup_reverse_eq_some_iff_of_single hSingle, hSame]
    rw [h'.get?_eq, h.get?_eq, hLookup]
  have hSource : r'.source = r.source := by rw [h'.source, h.source]
  obtain ⟨identifier, fields, source⟩ := r
  obtain ⟨identifier', fields', source'⟩ := r'
  cases hIdentifier
  cases hFields
  cases hSource
  rfl

end Flattening

/-- What a document with the same definitions is accepted for. -/
theorem DocumentFits.of_same_definitions {members members' : List (String × Json)}
    (h : DocumentFits (.object members))
    (hId : members'.lookup identifierField = members.lookup identifierField)
    (hSame : ∀ name v, Definition.Defines members' name v ↔ Definition.Defines members name v) :
    DocumentFits (.object members') := by
  obtain ⟨_, hMembers, hIdentifier, hFits⟩ := h
  cases hMembers
  refine ⟨members', rfl, ?_, fun d hd => ?_⟩
  · rw [HasIdentifier, hId]
    exact hIdentifier
  · obtain ⟨e, he, -, hValue⟩ := (hSame d.field d.value).mp ⟨d, hd, rfl, rfl⟩
    rw [← hValue]
    exact hFits e he

/--
**The last definition counts.** A document that is flattened is a table, and in its record

1. the names of the fields are the names that are defined, each of them and no others;
2. a field is the row of the last definition of its name: a scalar by itself, a list of scalars as
   one group, a list of lists as a group for each of them, in their order;
3. the identifier is the document's own `gid`, whatever its tables hold.

Another document with the same `gid` that gives the same names the same values, one value to a name,
is flattened into the same record, however it spreads them over tables and whatever it calls these.
-/
theorem fields_are_last_definitions {document : Json} {path : String} {r : Record}
    (hDoc : document.Canonical) (h : flatten document path = .ok r) :
    ∃ members, document = .object members ∧
      (∀ name, name ∈ r.fields.keys ↔ ∃ v, Definition.Defines members name v) ∧
      (∀ name row, r.fields.get? name = some row ↔
        ∃ d, Definition.LastOf members name d ∧ Row.Reads d.value row) ∧
      members.lookup identifierField = some (.number (.integer r.identifier.toInt)) ∧
      ∀ members' : List (String × Json),
        members'.lookup identifierField = members.lookup identifierField →
        (∀ name v, Definition.Defines members' name v ↔ Definition.Defines members name v) →
        (∀ name v w, Definition.Defines members name v → Definition.Defines members name w →
          v = w) →
        flatten (.object members') path = .ok r := by
  obtain ⟨members, rows, rfl, hFlat⟩ := flatten_eq_ok_iff.mp h
  refine ⟨members, rfl, fun name => ?_, fun name row => hFlat.get?_eq_some_iff hDoc,
    hFlat.lookup_identifierField, fun members' hId hSame hSingle => ?_⟩
  · rw [hFlat.mem_keys_iff, Definition.exists_defines_iff]
  · -- the regrouped document fits as this one does, and then both have the same fields
    have hFits : DocumentFits (.object members) := exists_flatten_iff.mp ⟨r, h⟩
    obtain ⟨r', h'⟩ := exists_flatten_iff.mpr (hFits.of_same_definitions hId hSame)
    obtain ⟨_, rows', hMembers, hFlat'⟩ := flatten_eq_ok_iff.mp h'
    cases hMembers
    rw [h', hFlat.of_same_definitions hFlat' hId hSame hSingle]

/-- Three definitions of one name, a name that is that of a table as well, and a table that puts a
text into the field `gid`. Another document spreads the same values over other tables. -/
theorem fields_are_last_definitions_of_table_and_field :
    let one : Json := .number (.integer 1)
    let groups : Json := .array [.array [one, .bool true], .array []]
    let members : List (String × Json) :=
      [("a", .object [("t", one), ("x", one)]), ("gid", one),
       ("t", .object [("gid", .string "n"), ("x", .array [])]), ("x", groups)]
    let row : Row := [.nested [.int 1, .bool true], .nested []]
    let record : Record :=
      { identifier := 1
        fields := KeyMap.ofList
          [("gid", [.scalar (.text "n")]), ("t", [.scalar (.int 1)]), ("x", row)]
        source := some "a.toml" }
    let repeated : List (String × Json) :=
      [("a", .object [("gid", one), ("x", one)]), ("gid", one), ("x", one)]
    let spread : List (String × Json) := [("gid", one), ("z", .object [("x", one)])]
    let plain : Record :=
      { identifier := 1
        fields := KeyMap.ofList [("gid", [.scalar (.int 1)]), ("x", [.scalar (.int 1)])]
        source := some "a.toml" }
    (Json.object members).Canonical ∧ flatten (.object members) "a.toml" = .ok record ∧
      (∃ d, Definition.LastOf members "x" d ∧ Row.Reads d.value row) ∧
      (¬ ∃ v, Definition.Defines members "a" v) ∧
      (Json.object repeated).Canonical ∧ flatten (.object repeated) "a.toml" = .ok plain ∧
      flatten (.object spread) "a.toml" = .ok plain := by
  intro one groups members row record repeated spread plain
  have hDoc : (Json.object members).Canonical := by decide +kernel
  have hFlat : flatten (.object members) "a.toml" = .ok record := by decide +kernel
  have hDoc' : (Json.object repeated).Canonical := by decide +kernel
  have hFlat' : flatten (.object repeated) "a.toml" = .ok plain := by decide +kernel
  have hRow : record.fields.get? "x" = some row := by decide +kernel
  have hNone : "a" ∉ record.fields.keys := by decide +kernel
  obtain ⟨_, hMembers, hNames, hRows, -, -⟩ := fields_are_last_definitions hDoc hFlat
  cases hMembers
  obtain ⟨_, hMembers, -, -, -, hTables⟩ := fields_are_last_definitions hDoc' hFlat'
  cases hMembers
  have hOne : ∀ name v, Definition.Defines repeated name v → v = one := by
    intro name v h
    rw [Definition.defines_iff] at h
    simp [definitions, definitionsOf, repeated] at h
    tauto
  -- the field has moved into another table, and is defined once instead of twice
  have hSpread : ∀ name v,
      Definition.Defines spread name v ↔ Definition.Defines repeated name v := by
    intro name v
    simp [Definition.defines_iff, definitions, definitionsOf, spread, repeated]
    tauto
  refine ⟨hDoc, hFlat, (hRows "x" row).mp hRow, fun h => hNone ((hNames "a").mpr h), hDoc', hFlat',
    hTables spread rfl hSpread fun name v w hv hw => ?_⟩
  rw [hOne name v hv, hOne name w hw]

end FoodScan
