import FoodScan.Proofs.Json.Rereading
import FoodScan.Proofs.Record.Leaves
import FoodScan.Proofs.Record.Refusal
import FoodScan.Record.Codec

/-!
# Two ways to JSON and back

Scalars, elements and rows have JSON values, and they are written and read without such a detour as
well. `Writer` is a form in which they are written: as text, or as JSON values. The two ways agree:

* `Scalar.ofAlternatives?_eq` — the first alternative that takes a JSON value is the scalar that the
  value stands for.
* `Row.ofAlternatives?_listJson` — a row is read back from its JSON value if JSON can write it.
* `Row.chars_eq` and its companions — what is written as text is the text of the JSON value.
* `Row.decode_eq_ok_iff` and its companions — texts are read as the alternatives say of their
  values.

Main result: `conversions_agree`.
-/

namespace FoodScan

-- ---------------------------------------------------------------------------
-- Forms in which values are written
-- ---------------------------------------------------------------------------

/-- A form in which values are written: what becomes of single values, and of a list of what its
items became. -/
structure Writer (α : Type) where
  bool  : Bool → α
  int   : Int64 → α
  float : Binary64 → α
  text  : String → α
  list  : List α → α

namespace Writer

/-- Values as JSON values. -/
def json : Writer Json where
  bool := .bool
  int n := .number (.integer n.toInt)
  float x := if x.isFinite then .number (.float x) else .null
  text := .string
  list := .array

/-- Values as JSON texts. -/
def chars : Writer (List Char) where
  bool b := if b then "true".toList else "false".toList
  int n := (toString n.toInt).toList
  float x := if x.isFinite then (Json.floatFormat.layout x).toList else "null".toList
  text := Json.quoteChars
  list := listChars

end Writer

section

variable {α : Type} (w : Writer α)

/-- A scalar is written without any mark of its kind. -/
def Scalar.write : Scalar → α
  | .bool b => w.bool b
  | .int n => w.int n
  | .float x => w.float x
  | .text s => w.text s

/-- Neither is an element. -/
def RowElement.write : RowElement → α
  | .scalar s => s.write w
  | .nested items => w.list (items.map (Scalar.write w))

/-- A row is a list, whatever its length. -/
def Row.write (row : Row) : α := w.list (row.map (RowElement.write w))

end

-- ---------------------------------------------------------------------------
-- Writing
-- ---------------------------------------------------------------------------

theorem Json.chars_array (items : List Json) :
    (Json.array items).chars = listChars (items.map Json.chars) := by
  rw [chars, itemChars_eq_map]
  rfl

namespace Scalar

/-- Derived writing to a JSON value gives the value that a scalar stands for. -/
theorem write_json (s : Scalar) : s.write .json = s.toJson := by cases s <;> rfl

theorem write_chars (s : Scalar) : s.write .chars = s.chars := by cases s <;> rfl

/-- A scalar is written as the text of its JSON value. -/
theorem chars_eq (s : Scalar) : s.chars = s.toJson.chars := by
  cases s with
  | bool b => cases b <;> rfl
  | float x =>
    rw [chars, toJson]
    split <;> rfl
  | _ => rfl

end Scalar

namespace RowElement

/-- An element is written as its scalar, or as the list of its scalars. -/
theorem write_json (element : RowElement) : element.write .json = element.toJson := by
  cases element with
  | scalar s => exact s.write_json
  | nested items => exact congrArg Json.array (List.map_congr_left fun s _ => s.write_json)

theorem write_chars (element : RowElement) : element.write .chars = element.chars := by
  cases element with
  | scalar s => exact s.write_chars
  | nested items => exact congrArg listChars (List.map_congr_left fun s _ => s.write_chars)

/-- An element is written as the text of its JSON value. -/
theorem chars_eq (element : RowElement) : element.chars = element.toJson.chars := by
  cases element with
  | scalar s => exact s.chars_eq
  | nested items =>
    rw [chars, toJson, Json.chars_array, List.map_map]
    exact congrArg listChars (List.map_congr_left fun s _ => s.chars_eq)

end RowElement

namespace Row

/-- A row is written as the list of its elements, with no list unwrapped. -/
theorem write_json (row : Row) : row.write .json = row.listJson :=
  congrArg Json.array (List.map_congr_left fun element _ => element.write_json)

theorem write_chars (row : Row) : row.write .chars = row.chars :=
  congrArg listChars (List.map_congr_left fun element _ => element.write_chars)

/-- A row is written as the text of the list of its elements. -/
theorem chars_eq (row : Row) : row.chars = row.listJson.chars := by
  rw [chars, listJson, Json.chars_array, List.map_map]
  exact congrArg listChars (List.map_congr_left fun element _ => element.chars_eq)

end Row

-- ---------------------------------------------------------------------------
-- Alternatives
-- ---------------------------------------------------------------------------

/-- **Scalars.** The alternatives exclude each other but for integers, which are taken as floats
only if they do not fit 64 signed bits: that is what the value stands for. -/
theorem Scalar.ofAlternatives?_eq (v : Json) : ofAlternatives? v = ofJson? v := by
  cases v with
  | number n =>
    cases n with
    | integer n =>
      simp only [ofAlternatives?, ofJson?, Json.toBool?, Json.toInt64?, Json.toBinary64?]
      cases int64? n <;> rfl
    | float x => rfl
  | _ => rfl

namespace RowElement

/-- A JSON value is an element: a scalar, or a list of scalars. -/
inductive Reads : Json → RowElement → Prop
  | scalar {v : Json} {s : Scalar} (h : Scalar.ofJson? v = some s) : Reads v (.scalar s)
  | nested {items : List Json} {scalars : List Scalar} (h : ScalarsRead items scalars) :
      Reads (.array items) (.nested scalars)

/-- A list of scalars is read alternative by alternative as it is by hand. -/
theorem mapM_ofAlternatives?_eq_some_iff {items : List Json} {scalars : List Scalar} :
    items.mapM Scalar.ofAlternatives? = some scalars ↔ ScalarsRead items scalars := by
  rw [mapM_eq_some_iff]
  simp only [Scalar.ofAlternatives?_eq]
  rfl

/-- **Elements.** No list is taken as a scalar, so it does not matter that scalars come first. -/
theorem ofAlternatives?_eq_some_iff {v : Json} {element : RowElement} :
    ofAlternatives? v = some element ↔ Reads v element := by
  rw [ofAlternatives?, Scalar.ofAlternatives?_eq]
  -- the scalar is tried first, so a list is looked at only where there is no scalar
  cases hScalar : Scalar.ofJson? v with
  | some s =>
    constructor
    · intro h
      cases h
      exact .scalar hScalar
    · intro h
      cases h with
      | scalar h => rw [← hScalar, h]; rfl
      | nested _ => cases hScalar
  | none =>
    constructor
    · intro h
      obtain ⟨scalars, hItems, rfl⟩ := Option.map_eq_some_iff.mp h
      obtain ⟨items, hv, hScalars⟩ := Option.bind_eq_some_iff.mp hItems
      obtain rfl := Scalar.eq_array_of_items? hv
      exact .nested (mapM_ofAlternatives?_eq_some_iff.mp hScalars)
    · intro h
      cases h with
      | scalar h => rw [hScalar] at h; cases h
      | nested h =>
        refine Option.map_eq_some_iff.mpr ⟨_, ?_, rfl⟩
        exact mapM_ofAlternatives?_eq_some_iff.mpr h

/-- What is accepted as an element. -/
theorem exists_reads_iff {v : Json} :
    (∃ element, Reads v element) ↔
      v.isScalar = true ∨ ∃ items, v = .array items ∧ ∀ x ∈ items, x.isScalar = true := by
  constructor
  · rintro ⟨_, h | h⟩
    · exact .inl (Json.exists_ofJson?_iff.mp ⟨_, h⟩)
    · exact .inr ⟨_, rfl, Row.scalarsRead_iff.mp ⟨_, h⟩⟩
  · rintro (h | ⟨items, rfl, h⟩)
    · obtain ⟨s, hs⟩ := Json.exists_ofJson?_iff.mpr h
      exact ⟨_, .scalar hs⟩
    · obtain ⟨scalars, hScalars⟩ := Row.scalarsRead_iff.mpr h
      exact ⟨_, .nested hScalars⟩

/-- Whatever the JSON value of an element is read as is that element, and JSON can write it. -/
theorem reads_toJson_iff {element element' : RowElement} :
    Reads element.toJson element' ↔
      element' = element ∧ ∀ s ∈ element.scalars, s.isNonFinite = false := by
  cases element with
  | scalar s =>
    rw [toJson, scalars, List.forall_mem_singleton]
    constructor
    · intro h
      -- what the scalar is shown as is named first, so that the cases of reading can be told apart
      generalize hShown : s.toJson = v at h
      cases h with
      | @scalar _ t h =>
        rw [← hShown, Scalar.ofJson?_toJson] at h
        split at h
        · cases h
        · rename_i hFinite
          cases h
          exact ⟨rfl, Bool.eq_false_of_not_eq_true hFinite⟩
      | nested _ =>
        have hItems := Scalar.items?_toJson s
        rw [hShown] at hItems
        cases hItems
    · -- a float that is not finite is shown as `null`, which is read as nothing
      rintro ⟨rfl, hFinite⟩
      exact .scalar (by rw [Scalar.ofJson?_toJson, hFinite]; rfl)
  | nested items =>
    rw [toJson, scalars]
    constructor
    · intro h
      cases h with
      | scalar h => cases h
      | nested h =>
        obtain ⟨rfl, hFinite⟩ := scalarsRead_toJson_iff.mp h
        exact ⟨rfl, hFinite⟩
    · rintro ⟨rfl, hFinite⟩
      exact .nested (scalarsRead_toJson hFinite)

end RowElement

namespace Row

/-- A row is read from a list, each element from an item of it. -/
theorem ofAlternatives?_eq_some_iff {v : Json} {row : Row} :
    ofAlternatives? v = some row ↔
      ∃ items, v = .array items ∧ List.Forall₂ RowElement.Reads items row := by
  have hItems : ∀ items : List Json, items.mapM RowElement.ofAlternatives? = some row ↔
      List.Forall₂ RowElement.Reads items row := by
    intro items
    rw [mapM_eq_some_iff]
    simp only [RowElement.ofAlternatives?_eq_some_iff]
  rw [ofAlternatives?, Option.bind_eq_some_iff]
  constructor
  · rintro ⟨items, hv, h⟩
    exact ⟨items, Scalar.eq_array_of_items? hv, (hItems items).mp h⟩
  · rintro ⟨items, rfl, h⟩
    exact ⟨items, rfl, (hItems items).mpr h⟩

/-- Whatever the JSON value of a row is read as is that row, and JSON can write it. -/
theorem ofAlternatives?_listJson_eq_some_iff {row row' : Row} :
    ofAlternatives? row.listJson = some row' ↔
      row' = row ∧ ∀ s ∈ row.scalars, s.isNonFinite = false := by
  have hElements : List.Forall₂ RowElement.Reads (row.map RowElement.toJson) row' ↔
      row' = row ∧ ∀ s ∈ row.scalars, s.isNonFinite = false := by
    rw [List.forall₂_map_left_iff]
    simp only [RowElement.reads_toJson_iff]
    -- element by element, on both rows at once
    induction row generalizing row' with
    | nil => simp [Row.scalars]
    | cons element rest ih =>
      rw [List.forall₂_cons_left_iff, Row.scalars, List.flatMap_cons, List.forall_mem_append]
      constructor
      · rintro ⟨_, rest', ⟨rfl, hFinite⟩, hRest, rfl⟩
        obtain ⟨rfl, hRestFinite⟩ := ih.mp hRest
        exact ⟨rfl, hFinite, hRestFinite⟩
      · rintro ⟨rfl, hFinite, hRestFinite⟩
        exact ⟨element, rest, ⟨rfl, hFinite⟩, ih.mpr ⟨rfl, hRestFinite⟩, rfl⟩
  rw [ofAlternatives?_eq_some_iff, ← hElements, listJson]
  constructor
  · rintro ⟨items, hItems, h⟩
    rwa [Json.array.inj hItems]
  · exact fun h => ⟨_, rfl, h⟩

/-- **Rows.** A row is read back from its JSON value, or from nothing if JSON cannot write it. -/
theorem ofAlternatives?_listJson (row : Row) :
    ofAlternatives? row.listJson =
      if row.scalars.any Scalar.isNonFinite then none else some row := by
  split
  · rename_i hSome
    obtain ⟨s, hs, hNonFinite⟩ := List.any_eq_true.mp hSome
    rw [Option.eq_none_iff_forall_ne_some]
    intro row' h
    rw [(ofAlternatives?_listJson_eq_some_iff.mp h).2 s hs] at hNonFinite
    cases hNonFinite
  · rename_i hNone
    refine ofAlternatives?_listJson_eq_some_iff.mpr ⟨rfl, fun s hs => ?_⟩
    exact Bool.eq_false_of_not_eq_true fun h => hNone (List.any_eq_true.mpr ⟨s, hs, h⟩)

end Row

-- ---------------------------------------------------------------------------
-- Reading texts
-- ---------------------------------------------------------------------------

namespace Json

open Reader

variable {α β : Type} {text : String}

/-- A text is one of a value if the value is read from it and only blanks are left. -/
theorem textOf_iff_value {v : Json} :
    TextOf text v ↔
      ∃ rest, value depthLimit text.toList = .ok (v, rest) ∧ finish rest = .ok () := by
  rw [← readRaw_eq_ok_iff, readRaw, readAll, mapError_eq_ok_iff, bind_eq_ok_iff]
  constructor
  · rintro ⟨⟨w, rest⟩, hValue, h⟩
    obtain ⟨u, hFinish, h⟩ := bind_eq_ok_iff.mp h
    cases h
    exact ⟨rest, hValue, hFinish⟩
  · rintro ⟨rest, hValue, hFinish⟩
    exact ⟨(v, rest), hValue, bind_eq_ok_iff.mpr ⟨(), hFinish, rfl⟩⟩

/-- A text is read as what its value is converted to. -/
theorem decodeAs_eq_ok_iff {type : String} {convert : Json → Option α} {a : α} :
    decodeAs type convert text = .ok a ↔ ∃ v, TextOf text v ∧ convert v = some a := by
  simp only [textOf_iff_value]
  rw [decodeAs]
  constructor
  · intro h
    -- the three ways to fail: no value, no conversion, something behind the value
    split at h
    · cases h
    · rename_i v rest hValue
      split at h
      · cases h
      · rename_i b hConvert
        split at h
        · cases h
        · rename_i hFinish
          cases h
          exact ⟨v, ⟨rest, hValue, hFinish⟩, hConvert⟩
  · rintro ⟨v, ⟨rest, hValue, hFinish⟩, hConvert⟩
    simp only [hValue, hConvert, hFinish]

/-- Items between brackets may be read as other things, one by one. -/
theorem between_exists_iff {P : α → List Char → Prop} {R : α → β → Prop} {later : Bool}
    {bs : List β} {body : List Char} :
    Between (fun b written => ∃ a, P a written ∧ R a b) later bs body ↔
      ∃ as, Between P later as body ∧ List.Forall₂ R as bs := by
  constructor
  · intro h
    -- the witnesses are collected along the list, in its order
    induction h with
    | done hBlanks => exact ⟨[], .done hBlanks, .nil⟩
    | first hBlanks hItem _ ih =>
      obtain ⟨a, hWritten, hR⟩ := hItem
      obtain ⟨as, hBetween, hRest⟩ := ih
      exact ⟨a :: as, .first hBlanks hWritten hBetween, .cons hR hRest⟩
    | later hBefore hAfter hItem _ ih =>
      obtain ⟨a, hWritten, hR⟩ := hItem
      obtain ⟨as, hBetween, hRest⟩ := ih
      exact ⟨a :: as, .later hBefore hAfter hWritten hBetween, .cons hR hRest⟩
  · rintro ⟨as, hBetween, hAll⟩
    induction hBetween generalizing bs with
    | done hBlanks =>
      cases hAll
      exact .done hBlanks
    | first hBlanks hWritten _ ih =>
      cases hAll with
      | cons hR hRest => exact .first hBlanks ⟨_, hWritten, hR⟩ (ih hRest)
    | later hBefore hAfter hWritten _ ih =>
      cases hAll with
      | cons hR hRest => exact .later hBefore hAfter ⟨_, hWritten, hR⟩ (ih hRest)

end Json

open Json Json.Reader

/-- A scalar is decoded from the texts of the values it is read from. -/
theorem Scalar.decode_eq_ok_iff {text : String} {s : Scalar} :
    decode text = .ok s ↔ ∃ v, TextOf text v ∧ ofJson? v = some s := by
  rw [decode, decodeAs_eq_ok_iff]
  simp only [ofAlternatives?_eq]

/-- An element is decoded from the texts of the values it is read from. -/
theorem RowElement.decode_eq_ok_iff {text : String} {element : RowElement} :
    decode text = .ok element ↔ ∃ v, TextOf text v ∧ Reads v element := by
  rw [decode, decodeAs_eq_ok_iff]
  simp only [ofAlternatives?_eq_some_iff]

namespace Row

variable {cs rest blanks written : List Char} {element : RowElement}

/-- An element inside a row is written as a value one level deeper. -/
def ElementWritten (element : RowElement) (written : List Char) : Prop :=
  ∃ v, Written (depthLimit - 1) v written ∧ RowElement.Reads v element

/-- What is read as an element is written as one, behind blanks. -/
theorem exists_written_of_readElement (h : readElement cs = .ok (element, rest)) :
    ∃ blanks written, Blank blanks ∧ cs = blanks ++ (written ++ rest) ∧
      ElementWritten element written := by
  obtain ⟨⟨v, rest'⟩, hValue, h⟩ := bind_eq_ok_iff.mp h
  dsimp only at h
  split at h
  · rename_i hElement
    cases h
    obtain ⟨blanks, written, hBlanks, hCs, hWritten⟩ := exists_written_of_value hValue
    exact ⟨blanks, written, hBlanks, hCs, v, hWritten,
      RowElement.ofAlternatives?_eq_some_iff.mp hElement⟩
  · cases h

/-- What is written as an element is read as one, if what comes behind does not go on with a number.
-/
theorem readElement_of_written (hBlanks : Blank blanks) (h : ElementWritten element written)
    (hRest : EndsNumber rest) :
    readElement (blanks ++ (written ++ rest)) = .ok (element, rest) := by
  obtain ⟨v, hWritten, hReads⟩ := h
  rw [readElement, value_of_written hBlanks hWritten hRest, ok_bind]
  dsimp only
  rw [RowElement.ofAlternatives?_eq_some_iff.mpr hReads]
  rfl

/-- An element starts with no blank, nor with the bracket that ends a list. -/
theorem ElementWritten.first (h : ElementWritten element written) :
    ∃ c rest, written = c :: rest ∧ isBlank c = false ∧ c ≠ ']' :=
  h.choose_spec.1.first

theorem written_array_iff {items : List Json} :
    Written depthLimit (.array items) written ↔
      ∃ body, written = '[' :: (body ++ [']']) ∧
        Between (Written (depthLimit - 1)) false items body := by
  constructor
  · rintro (h | h)
    · cases h
    · cases h with
      | array hItems => exact ⟨_, rfl, hItems⟩
  · rintro ⟨body, rfl, hItems⟩
    exact .inr (.array hItems)

/-- Reading an element consumes something, so reading a row ends. -/
theorem length_readElement (h : readElement cs = .ok (element, rest)) :
    rest.length < cs.length := by
  obtain ⟨⟨v, rest'⟩, hValue, h⟩ := bind_eq_ok_iff.mp h
  dsimp only at h
  split at h
  · cases h
    exact length_value hValue
  · cases h

/-- What is read as a row stands between brackets, after blanks. -/
theorem readRow_eq_ok_iff {row : Row} :
    readRow cs = .ok (row, rest) ↔
      ∃ blanks body, Blank blanks ∧ cs = blanks ++ '[' :: (body ++ ']' :: rest) ∧
        Between ElementWritten false row body := by
  constructor
  · intro h
    obtain ⟨blanks, hBlanks, hCs⟩ := exists_blanks cs
    rw [readRow] at h
    split at h
    · cases h
    · rename_i after hBracket
      obtain ⟨elements, body, rfl, rfl, hBody⟩ :=
        between_of_listStep exists_written_of_readElement (Text.scans_of_scan h)
      rw [hBracket] at hCs
      exact ⟨blanks, body, hBlanks, hCs, by simpa using hBody⟩
    · cases h
  · rintro ⟨blanks, body, hBlanks, rfl, hBody⟩
    -- each element that is written makes one step of the reader
    have hScans :=
      scans_listStep_of_between readElement_of_written ElementWritten.first hBody [] rfl rest
    rw [readRow, skipBlanks_append hBlanks]
    exact hScans.scan_eq (consumes_listStep_of length_readElement) _

/-- **Rows.** A text is read as a row if and only if it is one of a list that is read as it. -/
theorem decode_eq_ok_iff {text : String} {row : Row} :
    decode text = .ok row ↔ ∃ v, TextOf text v ∧ ofAlternatives? v = some row := by
  rw [decode, readAll, mapError_eq_ok_iff, bind_eq_ok_iff]
  constructor
  · rintro ⟨⟨row', after⟩, hRow, h⟩
    obtain ⟨u, hFinish, h⟩ := bind_eq_ok_iff.mp h
    cases h
    obtain ⟨before, body, hBefore, hText, hBody⟩ := readRow_eq_ok_iff.mp hRow
    -- the elements that were read stand for items of a list, and that list is the value of the text
    obtain ⟨items, hItems, hReads⟩ := between_exists_iff.mp hBody
    refine ⟨.array items, ⟨before, '[' :: (body ++ [']']), after, by simp [hText], hBefore, ?_, ?_⟩,
      ofAlternatives?_eq_some_iff.mpr ⟨items, rfl, hReads⟩⟩
    · exact written_array_iff.mpr ⟨body, rfl, hItems⟩
    · exact finish_eq_ok_iff.mp hFinish
  · rintro ⟨v, ⟨before, written, after, hText, hBefore, hWritten, hAfter⟩, hRow⟩
    obtain ⟨items, rfl, hReads⟩ := ofAlternatives?_eq_some_iff.mp hRow
    obtain ⟨body, rfl, hItems⟩ := written_array_iff.mp hWritten
    have hBody : Between ElementWritten false row body :=
      between_exists_iff.mpr ⟨items, hItems, hReads⟩
    refine ⟨(row, after), ?_, bind_eq_ok_iff.mpr ⟨(), finish_eq_ok_iff.mpr hAfter, rfl⟩⟩
    exact readRow_eq_ok_iff.mpr ⟨before, body, hBefore, by simp [hText], hBody⟩

end Row

/--
**The two conversions agree.**

1. A JSON value is taken as a scalar by the first alternative that takes it if and only if it stands
   for that scalar.
2. Scalars and elements, written as JSON values, are their JSON values; written as text, they are
   the texts of these. So are rows, which are written as lists whatever their length.
3. An element is a scalar or a list of scalars, and nothing else is.
4. A row of any elements is read back from the JSON value that it is written as, and from nothing if
   it holds a float that is not finite. The same goes for a scalar and what it stands for.
5. The decoders take the texts of those values that the alternatives take, as what these say.
-/
theorem conversions_agree :
    (∀ v s, Scalar.ofAlternatives? v = some s ↔ Scalar.ofJson? v = some s) ∧
    (∀ s : Scalar, s.write .json = s.toJson ∧ s.write .chars = s.chars ∧
      s.chars = s.toJson.chars) ∧
    (∀ element : RowElement, element.write .json = element.toJson ∧
      element.write .chars = element.chars ∧ element.chars = element.toJson.chars) ∧
    (∀ row : Row, row.write .json = row.listJson ∧ row.write .chars = row.chars ∧
      row.chars = row.listJson.chars) ∧
    (∀ v element, RowElement.ofAlternatives? v = some element ↔ RowElement.Reads v element) ∧
    (∀ v, (∃ element, RowElement.ofAlternatives? v = some element) ↔
      v.isScalar = true ∨ ∃ items, v = .array items ∧ ∀ x ∈ items, x.isScalar = true) ∧
    (∀ row : Row, Row.ofAlternatives? (row.write .json) =
      if row.scalars.any Scalar.isNonFinite then none else some row) ∧
    (∀ s : Scalar, Scalar.ofJson? s.toJson = if s.isNonFinite then none else some s) ∧
    (∀ text s, Scalar.decode text = .ok s ↔ ∃ v, TextOf text v ∧ Scalar.ofJson? v = some s) ∧
    (∀ text element, RowElement.decode text = .ok element ↔
      ∃ v, TextOf text v ∧ RowElement.Reads v element) ∧
    ∀ text row, Row.decode text = .ok row ↔
      ∃ v, TextOf text v ∧ Row.ofAlternatives? v = some row := by
  refine ⟨fun v s => by rw [Scalar.ofAlternatives?_eq], fun s => ?_, fun element => ?_,
    fun row => ?_, fun v element => RowElement.ofAlternatives?_eq_some_iff, fun v => ?_,
    fun row => ?_, Scalar.ofJson?_toJson, fun text s => Scalar.decode_eq_ok_iff,
    fun text element => RowElement.decode_eq_ok_iff, fun text row => Row.decode_eq_ok_iff⟩
  · exact ⟨s.write_json, s.write_chars, s.chars_eq⟩
  · exact ⟨element.write_json, element.write_chars, element.chars_eq⟩
  · exact ⟨row.write_json, row.write_chars, row.chars_eq⟩
  · simp only [RowElement.ofAlternatives?_eq_some_iff]
    exact RowElement.exists_reads_iff
  · rw [row.write_json]
    exact row.ofAlternatives?_listJson

end FoodScan
