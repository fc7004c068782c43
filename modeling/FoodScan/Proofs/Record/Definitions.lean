import FoodScan.Proofs.Json.Canonical
import FoodScan.Proofs.Text.ByteOrder
import FoodScan.Record.Flatten

/-!
# The definitions of a document

A document defines a field by each of its members, and a table among them by each of its own. A
`Definition` keeps the keys that lead to the value, so that it can be said where a value stands:
`Definition.Of` says which definitions a document has, and `Definition.Before` compares two of them
by the bytes of their keys.

* `Definition.mem_listed_iff`, `Definition.definitions_eq_map` — flattening goes through just these
  definitions.
* `Definition.pairwise_listed` — it goes through them in the order of their bytes.
-/

namespace FoodScan

/-- A definition of a field in a document: the key of a member and, if the member is a table, the
key in there, with the value. -/
structure Definition where
  key : String
  inner : Option String
  value : Json

namespace Definition

/-- The field that is defined. -/
def field (d : Definition) : String := d.inner.getD d.key

/-- One definition is read before another: its key has smaller bytes, or both are of one table and
the key in there has. -/
def Before (d e : Definition) : Prop :=
  List.Lex (· < ·) (Text.utf8Bytes d.key) (Text.utf8Bytes e.key) ∨
    d.key = e.key ∧ ∃ m n, d.inner = some m ∧ e.inner = some n ∧
      List.Lex (· < ·) (Text.utf8Bytes m) (Text.utf8Bytes n)

/-- The definitions of a document: its members, but for tables their members. -/
inductive Of (members : List (String × Json)) : Definition → Prop
  | own {key : String} {v : Json} (hMember : (key, v) ∈ members) (hValue : v.kind ≠ .object) :
      Of members ⟨key, none, v⟩
  | ofTable {key inner : String} {table : List (String × Json)} {v : Json}
      (hMember : (key, .object table) ∈ members) (hInner : (inner, v) ∈ table) :
      Of members ⟨key, some inner, v⟩

/-- The definitions that one member of a document makes. -/
def ofMember (e : String × Json) : List Definition :=
  match e.2 with
  | .object table => table.map fun f => ⟨e.1, some f.1, f.2⟩
  | v => [⟨e.1, none, v⟩]

/-- The definitions of a document in the order in which they are read. -/
def listed (members : List (String × Json)) : List Definition := members.flatMap ofMember

/-- A member lists its own definitions: one for its key, or one for each key of a table. -/
theorem mem_ofMember_iff {e : String × Json} {d : Definition} :
    d ∈ ofMember e ↔ Of [e] d := by
  obtain ⟨key, v⟩ := e
  constructor
  · intro h
    -- a table defines its keys, and any other value itself
    cases v with
    | object table =>
      obtain ⟨⟨inner, w⟩, hInner, rfl⟩ := List.mem_map.mp h
      exact .ofTable List.mem_cons_self hInner
    | _ =>
      obtain rfl := List.mem_singleton.mp h
      exact .own List.mem_cons_self nofun
  · rintro (⟨hMember, hValue⟩ | ⟨hMember, hInner⟩)
    · cases List.mem_singleton.mp hMember
      cases v with
      | object table => exact absurd rfl hValue
      | _ => exact List.mem_cons_self
    · cases List.mem_singleton.mp hMember
      exact List.mem_map.mpr ⟨_, hInner, rfl⟩

/-- A definition of a document is one of a single member. -/
theorem of_iff {members : List (String × Json)} {d : Definition} :
    Of members d ↔ ∃ e ∈ members, Of [e] d := by
  constructor
  · rintro (⟨hMember, hValue⟩ | ⟨hMember, hInner⟩)
    · exact ⟨_, hMember, .own List.mem_cons_self hValue⟩
    · exact ⟨_, hMember, .ofTable List.mem_cons_self hInner⟩
  · rintro ⟨e, he, ⟨hMember, hValue⟩ | ⟨hMember, hInner⟩⟩
    · exact .own (List.mem_singleton.mp hMember ▸ he) hValue
    · exact .ofTable (List.mem_singleton.mp hMember ▸ he) hInner

/-- The definitions listed are those a document has. -/
theorem mem_listed_iff {members : List (String × Json)} {d : Definition} :
    d ∈ listed members ↔ Of members d := by
  rw [listed, List.mem_flatMap, of_iff]
  simp only [mem_ofMember_iff]

theorem key_of_mem_ofMember {e : String × Json} {d : Definition} (h : d ∈ ofMember e) :
    d.key = e.1 := by
  rcases mem_ofMember_iff.mp h with ⟨hMember, -⟩ | ⟨hMember, -⟩ <;>
    exact congrArg Prod.fst (List.mem_singleton.mp hMember)

/-- The fields are defined in this order. -/
theorem definitions_eq_map (members : List (String × Json)) :
    definitions members = (listed members).map fun d => (d.field, d.value) := by
  rw [definitions, listed, List.map_flatMap]
  refine congrArg (List.flatMap · members) (funext fun e => ?_)
  obtain ⟨key, v⟩ := e
  cases v with
  | object table =>
    rw [definitionsOf, ofMember, List.map_map]
    exact (List.map_id table).symm
  | _ => rfl

/-- **The order of reading** is that of the bytes of the keys. -/
theorem pairwise_listed {members : List (String × Json)} (hDoc : (Json.object members).Canonical) :
    (listed members).Pairwise Before := by
  cases hDoc with
  | object hAscending hValues =>
    rw [listed, List.pairwise_flatMap]
    constructor
    · -- within a member that is a table, the keys of the table ascend
      rintro ⟨key, v⟩ he
      have hValue := hValues _ he
      cases v with
      | object table =>
        cases hValue with
        | object hTable _ =>
          refine List.Pairwise.map _ (fun f g hLt => ?_) hTable
          exact .inr ⟨rfl, f.1, g.1, rfl, rfl, Text.lt_iff_utf8Bytes_lt.mp hLt⟩
      | _ => exact List.pairwise_singleton _ _
    · refine hAscending.imp fun {e f} hLt d hd d' hd' => .inl ?_
      rw [key_of_mem_ofMember hd, key_of_mem_ofMember hd']
      exact Text.lt_iff_utf8Bytes_lt.mp hLt

/-- No two definitions come before each other, since keys are compared by their bytes. -/
theorem Before.asymm {d e : Definition} (h : Before d e) : ¬ Before e d := by
  have hAsymm : ∀ {xs ys : List UInt8}, List.Lex (· < ·) xs ys → ¬ List.Lex (· < ·) ys xs :=
    List.lex_asymm fun hxy => UInt8.lt_asymm hxy
  -- keys decide first; under one key both are in a table, and their inner names decide
  rintro (hKey' | ⟨hKey', m, n, hm, hn, hInner'⟩)
  · rcases h with hKey | ⟨hKey, -⟩
    · exact hAsymm hKey hKey'
    · rw [hKey] at hKey'
      exact List.lex_irrefl UInt8.lt_irrefl _ hKey'
  · rcases h with hKey | ⟨-, m', n', hm', hn', hInner⟩
    · rw [hKey'] at hKey
      exact List.lex_irrefl UInt8.lt_irrefl _ hKey
    · rw [hm] at hn'
      rw [hn] at hm'
      cases hm'
      cases hn'
      exact hAsymm hInner hInner'

/-- What stands before a definition is what is read before it. -/
theorem mem_before_iff {before after : List Definition} {d e : Definition}
    (h : (before ++ d :: after).Pairwise Before) :
    e ∈ before ↔ e ∈ before ++ d :: after ∧ e.Before d := by
  obtain ⟨-, hTail, hCross⟩ := List.pairwise_append.mp h
  constructor
  · intro he
    exact ⟨List.mem_append_left _ he, hCross e he d List.mem_cons_self⟩
  · rintro ⟨hMem, hBefore⟩
    rcases List.mem_append.mp hMem with he | he
    · exact he
    · rcases List.mem_cons.mp he with rfl | he'
      · exact absurd hBefore hBefore.asymm
      · exact absurd hBefore ((List.pairwise_cons.mp hTail).1 e he').asymm

end Definition

end FoodScan
