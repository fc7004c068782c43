import FoodScan.Proofs.Json.Canonical
import FoodScan.Proofs.Json.Compact
import FoodScan.Proofs.Query.Grammar
import FoodScan.Proofs.Text.ByteOrder

/-!
# Queries and the texts they are written in

A query is read from the text of a JSON object. Of several members with one key only the last
counts, and the members are taken in the order of the bytes of their keys: the terms of the query
are in that order, and if anything is wrong, that order decides what is reported. So neither the
order of the members in the text nor its white space matters, and a member that a later one shadows
may hold anything.

* `QueryOf` and `RefusedFor` — the query of an object, and the error of an object that has none.
* `parse_eq_ok_iff` and `parse_eq_error_iff` — they are what is made of the text of the object.
* `parse_congr` — objects with the same last members are not told apart.

Main result: `parse_takes_last_members`.
-/

namespace FoodScan

-- ---------------------------------------------------------------------------
-- The last member with a key
-- ---------------------------------------------------------------------------

namespace Json

/-- An object has a member with this key and value, and none with the same key after it. -/
def LastMember (members : List (String × Json)) (key : String) (v : Json) : Prop :=
  ∃ before after, members = before ++ (key, v) :: after ∧ ∀ e ∈ after, e.1 ≠ key

variable {members members' : List (String × Json)} {key : String} {v w : Json}

/-- The last member of a key is what looking it up from the end finds. -/
theorem lastMember_iff : LastMember members key v ↔ members.reverse.lookup key = some v := by
  rw [List.lookup_eq_some_iff]
  constructor
  · rintro ⟨before, after, rfl, hAfter⟩
    refine ⟨after.reverse, before.reverse, by simp, fun e he => ?_⟩
    exact bne_iff_ne.mpr (hAfter e (List.mem_reverse.mp he)).symm
  · rintro ⟨after, before, hSplit, hAfter⟩
    refine ⟨before.reverse, after.reverse, ?_, fun e he => ?_⟩
    · rw [← List.reverse_reverse members, hSplit]
      simp
    · exact (bne_iff_ne.mp (hAfter e (List.mem_reverse.mp he))).symm

/-- A key has at most one last member. -/
theorem LastMember.unique (h : LastMember members key v) (h' : LastMember members key w) :
    v = w := by
  rw [lastMember_iff] at h h'
  exact Option.some.inj (h.symm.trans h')

theorem LastMember.mem_keys (h : LastMember members key v) : key ∈ members.map Prod.fst := by
  obtain ⟨before, after, rfl, -⟩ := h
  simp

/-- The same keys have the same last values, once the members of the objects in these are filed. -/
def SameLastMembers (members members' : List (String × Json)) : Prop :=
  ∀ key w, (∃ v, LastMember members key v ∧ v.normalize = w) ↔
    ∃ v, LastMember members' key v ∧ v.normalize = w

/-- The members of an object, each key once and in order. -/
def filed (members : List (String × Json)) : List (String × Json) :=
  Entries.ofList (normalizeMembers members)

/-- Normalising an object files its members by their keys. -/
theorem normalize_object (members : List (String × Json)) :
    (object members).normalize = .object (filed members) := by
  rw [normalize, filed]

/-- Filed members ascend by the bytes of their keys. -/
theorem ascending_filed (members : List (String × Json)) : Entries.Ascending (filed members) :=
  Entries.ascending_ofList _

/-- What is filed under a key is its last member. -/
theorem lookup_filed (members : List (String × Json)) (key : String) :
    (filed members).lookup key = (members.reverse.lookup key).map normalize := by
  rw [filed, Entries.lookup_ofList, normalizeMembers_eq_map, ← List.map_reverse, Entries.lookup_map]

/-- Nothing but last members is filed, each normalised. -/
theorem mem_filed_iff :
    (key, w) ∈ filed members ↔ ∃ v, LastMember members key v ∧ v.normalize = w := by
  rw [← Entries.lookup_eq_some_iff (ascending_filed members), lookup_filed, Option.map_eq_some_iff]
  simp only [lastMember_iff]

theorem mem_keys_filed : key ∈ (filed members).map Prod.fst ↔ key ∈ members.map Prod.fst := by
  have hKeys := @KeyMap.mem_keys_ofList _ (normalizeMembers members) key
  rw [normalizeMembers_eq_map] at hKeys
  rw [filed, normalizeMembers_eq_map]
  refine hKeys.trans ?_
  rw [Entries.keys, List.map_map]
  rfl

/-- Objects have the same last members if they are filed alike. -/
theorem sameLastMembers_iff :
    SameLastMembers members members' ↔ filed members = filed members' := by
  simp only [SameLastMembers, ← mem_filed_iff]
  constructor
  · intro h
    have : Std.Asymm fun e f : String × Json => e.1 < f.1 := ⟨fun _ _ => String.lt_asymm⟩
    exact (ascending_filed members).eq_of_mem_iff (ascending_filed members') fun e => h e.1 e.2
  · intro h key w
    rw [h]

end Json

open Json

-- ---------------------------------------------------------------------------
-- Criteria do not see the order of members
-- ---------------------------------------------------------------------------

/-- Scalars are read the same before and after normalising, which reaches into objects only. -/
theorem scalarFor_normalize (field : String) (v : Json) :
    scalarFor field v.normalize = scalarFor field v := by
  cases v <;> simp [scalarFor, Json.normalize, Scalar.ofJson?, kind]

theorem items?_normalize (v : Json) : v.normalize.items? = v.items?.map (·.map Json.normalize) := by
  cases v with
  | array items => rw [Json.normalize, normalizeItems_eq_map]; rfl
  | _ => rw [Json.normalize]; rfl

/-- A reader that cannot see normalising cannot see it under a list. -/
theorem mapM_normalize {β : Type} {f : Json → Except QueryError β}
    (hf : ∀ v, f v.normalize = f v) (items : List Json) :
    (items.map Json.normalize).mapM f = items.mapM f := by
  rw [List.mapM_map]
  exact mapM_congr fun v _ => hf v

/-- Items of groups are read the same, by their scalars. -/
theorem groupItem_normalize (field : String) (v : Json) :
    groupItem field v.normalize = groupItem field v := by
  cases hItems : v.items? with
  | some items =>
    obtain rfl := Scalar.eq_array_of_items? hItems
    rw [Json.normalize, groupItem, groupItem]
  | none =>
    have hNone : v.normalize.items? = none := by rw [items?_normalize, hItems]; rfl
    rw [groupItem_of_not_list hItems, groupItem_of_not_list hNone, scalarFor_normalize]

/-- So are alternatives, by the items of their groups. -/
theorem Alternative.ofJson_normalize (field : String) (v : Json) :
    Alternative.ofJson field v.normalize = Alternative.ofJson field v := by
  cases hItems : v.items? with
  | some items =>
    obtain rfl := Scalar.eq_array_of_items? hItems
    rw [Json.normalize, normalizeItems_eq_map, Alternative.ofJson, Alternative.ofJson,
      mapM_normalize (groupItem_normalize field)]
  | none =>
    have hNone : v.normalize.items? = none := by rw [items?_normalize, hItems]; rfl
    rw [ofJson_of_not_list hItems, ofJson_of_not_list hNone, scalarFor_normalize]

/-- **Criteria** do not see in which order an object in them has its members. -/
theorem Criterion.ofJson_normalize (field : String) (v : Json) :
    Criterion.ofJson field v.normalize = Criterion.ofJson field v := by
  cases hItems : v.items? with
  | some items =>
    obtain rfl := Scalar.eq_array_of_items? hItems
    rw [Json.normalize, normalizeItems_eq_map, ofJson_array, ofJson_array,
      mapM_normalize (Alternative.ofJson_normalize field)]
  | none =>
    have hNone : v.normalize.items? = none := by rw [items?_normalize, hItems]; rfl
    rw [ofJson_of_not_list hItems, ofJson_of_not_list hNone, scalarFor_normalize]

/-- The field that an error is about. -/
def QueryError.field? : QueryError → Option String
  | .notAnObject _ | .invalidMode _ => none
  | .invalidValue field _ | .tooDeep field | .emptyGroup field => some field

theorem InItems.exists_offends {ε : Type} {offends : Json → List Nat → ε → Prop}
    {items : List Json} {place : List Nat} {why : ε} (h : InItems offends items place why) :
    ∃ x place', offends x place' why := by
  obtain @⟨i, x, place', _, -, h⟩ := h
  exact ⟨x, place', h⟩

/-- Whatever offends, the error names the field. -/
theorem Criterion.Offends.field?_eq {field : String} {v : Json} {place : List Nat}
    {why : QueryError} (h : Criterion.Offends field v place why) : why.field? = some field := by
  cases h with
  | value => rfl
  | item h =>
    obtain ⟨x, _, h⟩ := h.exists_offends
    cases h with
    | value | emptyGroup => rfl
    | member h =>
      obtain ⟨y, _, h⟩ := h.exists_offends
      cases h <;> rfl

/-- A refused criterion is reported under the field it stands for. -/
theorem Criterion.field?_of_ofJson {field : String} {v : Json} {why : QueryError}
    (h : Criterion.ofJson field v = .error why) : why.field? = some field := by
  obtain ⟨place, hOffends, -⟩ := (Criterion.finds_ofJson field v).eq_error_iff.mp h
  exact hOffends.field?_eq

theorem Criterion.not_fits_of_ofJson {field : String} {v : Json} {why : QueryError}
    (h : Criterion.ofJson field v = .error why) : ¬ Criterion.Fits v := by
  rw [← @Criterion.exists_ofJson_iff field, h]
  rintro ⟨c, hOk⟩
  cases hOk

namespace Query

variable {mode : Mode} {text : String} {members : List (String × Json)} {q : Query}
  {why : QueryError}

/-- The query of an object: its terms ascend by the bytes of their fields, these are the keys of the
object, and each has the criterion of the last member with its key. -/
structure OfLastMembers (members : List (String × Json)) (q : Query) : Prop where
  ascending : q.terms.Pairwise fun s t =>
    List.Lex (· < ·) (Text.utf8Bytes s.1) (Text.utf8Bytes t.1)
  fields : ∀ key, key ∈ q.terms.map Prod.fst ↔ key ∈ members.map Prod.fst
  criteria : ∀ t ∈ q.terms, ∃ v, LastMember members t.1 v ∧ Criterion.ofJson t.1 v = .ok t.2

/-- What is wrong with an object that has no query: of the last members with their keys, the first
in the order of the bytes of the keys that is no criterion. -/
def FirstRefused (members : List (String × Json)) (why : QueryError) : Prop :=
  ∃ key v, LastMember members key v ∧ ¬ Criterion.Fits v ∧ Criterion.ofJson key v = .error why ∧
    why.field? = some key ∧
    ∀ key' v', LastMember members key' v' →
      List.Lex (· < ·) (Text.utf8Bytes key') (Text.utf8Bytes key) → Criterion.Fits v'

/-- A query is parsed from a text as it is read from the normalised value the text is of. -/
theorem parse_of_textOf {v : Json} (h : TextOf text v) :
    parse mode text = ofJson mode v.normalize := by
  rw [parse, Json.read, readRaw_eq_ok_iff.mpr h]
  rfl

/-- The text of an object is parsed by its filed members. -/
theorem parse_of_object (h : TextOf text (.object members)) :
    parse mode text = ofJson mode (.object (filed members)) := by
  rw [parse_of_textOf h, normalize_object]

/-- What is parsed has the last members as its terms, in the order of their keys. -/
theorem ofLastMembers_of_parse (h : TextOf text (.object members))
    (hParse : parse mode text = .ok q) : q.mode = mode ∧ OfLastMembers members q := by
  rw [parse_of_object h] at hParse
  obtain ⟨hMode, hTerms⟩ := ofJson_eq_ok_iff.mp hParse
  have hKeys := map_fst_forall₂ hTerms
  -- the terms keep the keys of the filed members, which ascend
  have hAscending : (q.terms.map Prod.fst).Pairwise (· < ·) := by
    rw [hKeys]
    exact List.pairwise_map.mpr (ascending_filed members)
  refine ⟨hMode, ?_, fun key => ?_, fun t ht => ?_⟩
  · exact (List.pairwise_map.mp hAscending).imp fun hLt => Text.lt_iff_utf8Bytes_lt.mp hLt
  · rw [hKeys]
    exact mem_keys_filed
  · obtain ⟨e, he, hKey, hReads⟩ := exists_of_mem_right hTerms ht
    obtain ⟨v, hLast, hNormal⟩ := mem_filed_iff.mp (show (e.1, e.2) ∈ filed members from he)
    refine ⟨v, hKey ▸ hLast, ?_⟩
    rw [← Criterion.ofJson_normalize, hNormal, Criterion.ofJson_eq_ok_iff]
    exact hReads

/-- Parsing fails on the first key, in byte order, whose last member is refused. -/
theorem parse_eq_error_iff (h : TextOf text (.object members)) :
    parse mode text = .error why ↔ FirstRefused members why := by
  rw [parse_of_object h, ofJson_eq_error_iff (ascending_filed members)]
  constructor
  · rintro ⟨⟨key, w⟩, he, hError, hBefore⟩
    obtain ⟨v, hLast, rfl⟩ := mem_filed_iff.mp he
    rw [Criterion.ofJson_normalize] at hError
    refine ⟨key, v, hLast, Criterion.not_fits_of_ofJson hError, hError,
      Criterion.field?_of_ofJson hError, fun key' v' hLast' hLt => ?_⟩
    -- keys before this one have readable values, and readable is the same before and after
    -- normalising
    obtain ⟨c, hReads⟩ := hBefore (key', v'.normalize) (mem_filed_iff.mpr ⟨v', hLast', rfl⟩)
      (Text.lt_iff_utf8Bytes_lt.mpr hLt)
    rw [← @Criterion.exists_ofJson_iff key', ← Criterion.ofJson_normalize]
    exact ⟨c, Criterion.ofJson_eq_ok_iff.mpr hReads⟩
  · rintro ⟨key, v, hLast, -, hError, -, hBefore⟩
    refine ⟨(key, v.normalize), mem_filed_iff.mpr ⟨v, hLast, rfl⟩, ?_, ?_⟩
    · rw [Criterion.ofJson_normalize]
      exact hError
    · rintro ⟨key', w⟩ he hLt
      obtain ⟨v', hLast', rfl⟩ := mem_filed_iff.mp he
      have hFits := hBefore key' v' hLast' (Text.lt_iff_utf8Bytes_lt.mp hLt)
      obtain ⟨c, hOk⟩ := (@Criterion.exists_ofJson_iff key' v').mpr hFits
      rw [← Criterion.ofJson_normalize] at hOk
      exact ⟨c, Criterion.ofJson_eq_ok_iff.mp hOk⟩

/-- An object has no more than one query in a mode. -/
theorem OfLastMembers.terms_eq {q' : Query} (h : OfLastMembers members q)
    (h' : OfLastMembers members q') : q.terms = q'.terms := by
  -- the last member of a name is one, so each term of one query is a term of the other
  have hSub : ∀ {q q' : Query}, OfLastMembers members q → OfLastMembers members q' →
      ∀ t ∈ q.terms, t ∈ q'.terms := by
    intro q q' h h' t ht
    obtain ⟨v, hLast, hOk⟩ := h.criteria t ht
    obtain ⟨t', ht', hKey⟩ := List.mem_map.mp ((h'.fields t.1).mpr hLast.mem_keys)
    obtain ⟨v', hLast', hOk'⟩ := h'.criteria t' ht'
    rw [hKey] at hLast' hOk'
    rw [hLast'.unique hLast, hOk] at hOk'
    have hSame : t' = t := Prod.ext hKey (Except.ok.inj hOk').symm
    rwa [← hSame]
  have : Std.Asymm fun s t : String × Criterion =>
      List.Lex (· < ·) (Text.utf8Bytes s.1) (Text.utf8Bytes t.1) :=
    ⟨fun s t hLt hGt => String.lt_asymm (Text.lt_iff_utf8Bytes_lt.mpr hLt)
      (Text.lt_iff_utf8Bytes_lt.mpr hGt)⟩
  -- ascending lists with the same members are equal
  exact h.ascending.eq_of_mem_iff h'.ascending fun t => ⟨hSub h h' t, hSub h' h t⟩

theorem parse_eq_ok_iff (h : TextOf text (.object members)) :
    parse mode text = .ok q ↔ q.mode = mode ∧ OfLastMembers members q := by
  refine ⟨ofLastMembers_of_parse h, fun ⟨hMode, hQuery⟩ => ?_⟩
  cases hParse : parse mode text with
  | ok q' =>
    obtain ⟨hMode', hQuery'⟩ := ofLastMembers_of_parse h hParse
    obtain ⟨m, terms⟩ := q
    obtain ⟨m', terms'⟩ := q'
    cases hMode.trans hMode'.symm
    cases hQuery.terms_eq hQuery'
    rfl
  -- a refusal names a key whose last member has no reading, but the query has one for every key
  | error why =>
    obtain ⟨key, v, hLast, -, hError, -⟩ := (parse_eq_error_iff h).mp hParse
    obtain ⟨t, ht, rfl⟩ := List.mem_map.mp ((hQuery.fields key).mpr hLast.mem_keys)
    obtain ⟨w, hLast', hOk⟩ := hQuery.criteria t ht
    rw [hLast'.unique hLast, hError] at hOk
    cases hOk

/-- Neither the order of members nor one that is shadowed makes a difference. -/
theorem parse_congr {text' : String} {members' : List (String × Json)}
    (h : TextOf text (.object members)) (h' : TextOf text' (.object members'))
    (hSame : SameLastMembers members members') : parse mode text = parse mode text' := by
  rw [parse_of_object h, parse_of_object h', sameLastMembers_iff.mp hSame]

/-- A text of anything but an object is refused by the kind of its value. -/
theorem parse_of_no_object {v : Json} (h : TextOf text v) (hKind : v.kind ≠ .object) :
    parse mode text = .error (.notAnObject v.kind.description) := by
  rw [parse_of_textOf h]
  cases v with
  | object members => exact absurd rfl hKind
  | _ => rw [Json.normalize]; rfl

/-- A text that is no JSON is refused with the reader's own message. -/
theorem parse_of_no_json (h : ∀ v, ¬ TextOf text v) :
    ∃ e : ReadError, parse mode text =
      .error (.notAnObject ("invalid JSON (" ++ e.message ++ ")")) := by
  cases hRead : readRaw text with
  | ok v => exact absurd (readRaw_eq_ok_iff.mp hRead) (h v)
  | error e => exact ⟨e, by rw [parse, Json.read, hRead]; rfl⟩

/-- **Queries and their texts.** The text of an object is read as the query of its last members, or
refused for the first of these, in the order of the bytes of the keys, that is no criterion; what is
the text of something else, or of nothing, is no object. Objects with the same last members are not
told apart, nor are texts that differ only in white space. -/
theorem parse_takes_last_members (mode : Mode) (text : String) :
    (∀ members, TextOf text (.object members) →
      (∀ q, parse mode text = .ok q ↔ q.mode = mode ∧ OfLastMembers members q) ∧
      ∀ why, parse mode text = .error why ↔ FirstRefused members why) ∧
    (∀ v, TextOf text v → v.kind ≠ .object →
      parse mode text = .error (.notAnObject v.kind.description)) ∧
    ((∀ v, ¬ TextOf text v) → ∃ e : ReadError, parse mode text =
      .error (.notAnObject ("invalid JSON (" ++ e.message ++ ")"))) ∧
    (∀ text' members members', TextOf text (.object members) → TextOf text' (.object members') →
      SameLastMembers members members' → parse mode text = parse mode text') ∧
    ∀ text' v v', TextOf text v → TextOf text' v' → compact text = compact text' →
      parse mode text = parse mode text' := by
  refine ⟨fun members h => ⟨fun q => parse_eq_ok_iff h, fun why => parse_eq_error_iff h⟩,
    fun v => parse_of_no_object, parse_of_no_json, fun text' members members' => parse_congr, ?_⟩
  intro text' v v' h h' hSame
  rw [parse_of_textOf h, parse_of_textOf h', eq_of_compact_eq h h' hSame]

/-- A null that is shadowed, the same object the other way round and with more blanks, and texts of
what is no query. -/
theorem parse_takes_last_members_despite_shadowed_null :
    OfLastMembers [("b", .array [.array [.string "x"]]), ("a", .null), ("a", .bool true)]
      ⟨.or, [("a", .one (.bool true)), ("b", .anyOf [.all ⟨[.text "x"], by decide⟩])]⟩ ∧
      parse .or "\x7b\"b\": [[\"x\"]], \"a\": null, \"a\": true\x7d" =
        parse .or "\x7b\"a\": true, \"b\": [[\"x\"]]\x7d" ∧
      parse .or "\x7b\"b\": [[\"x\"]], \"a\": null, \"a\": true\x7d" =
        parse .or " \x7b \"b\":[[ \"x\"]],\n\"a\":null ,\"a\":true\x7d\t" ∧
      FirstRefused [("b", .null), ("a", .array [.array []])] (.emptyGroup "a") ∧
      parse .or "[\"a\"]" = .error (.notAnObject "a list") ∧
      ∃ e : ReadError, parse .or "[" =
        .error (.notAnObject ("invalid JSON (" ++ e.message ++ ")")) := by
  have hText : TextOf "\x7b\"b\": [[\"x\"]], \"a\": null, \"a\": true\x7d" (.object
      [("b", .array [.array [.string "x"]]), ("a", .null), ("a", .bool true)]) :=
    readRaw_eq_ok_iff.mp rfl
  have hOther : TextOf "\x7b\"a\": true, \"b\": [[\"x\"]]\x7d" (.object
      [("a", .bool true), ("b", .array [.array [.string "x"]])]) := readRaw_eq_ok_iff.mp rfl
  have hBlanks : TextOf " \x7b \"b\":[[ \"x\"]],\n\"a\":null ,\"a\":true\x7d\t" (.object
      [("b", .array [.array [.string "x"]]), ("a", .null), ("a", .bool true)]) :=
    readRaw_eq_ok_iff.mp rfl
  have hRefused : TextOf "\x7b\"b\": null, \"a\": [[]]\x7d" (.object
      [("b", .null), ("a", .array [.array []])]) := readRaw_eq_ok_iff.mp rfl
  have hList : TextOf "[\"a\"]" (.array [.string "a"]) := readRaw_eq_ok_iff.mp rfl
  -- that the text is none of JSON is read off the reader, which accepts every text there is of a
  -- value
  have hNone : ∀ v, ¬ TextOf "[" v := by
    intro v h
    have hRead : (readRaw "[").toOption.isNone = true := by decide +kernel
    rw [readRaw_eq_ok_iff.mpr h] at hRead
    cases hRead
  obtain ⟨hObject, -, -, hShadowed, hCompact⟩ := parse_takes_last_members .or
    "\x7b\"b\": [[\"x\"]], \"a\": null, \"a\": true\x7d"
  refine ⟨((hObject _ hText).1 _ |>.mp (by decide +kernel)).2, ?_, ?_, ?_, ?_, ?_⟩
  · exact hShadowed _ _ _ hText hOther (sameLastMembers_iff.mpr rfl)
  · exact hCompact _ _ _ hText hBlanks (by decide +kernel)
  · exact ((parse_takes_last_members .or _).1 _ hRefused).2 _ |>.mp (by decide +kernel)
  · exact (parse_takes_last_members .or _).2.1 _ hList nofun
  · exact (parse_takes_last_members .or _).2.2.1 hNone

end Query

end FoodScan
