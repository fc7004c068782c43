import FoodScan.Scalar

/-!
# Records

A record is one scanned item: an identifier, a map from field names to rows, and the
metadata file it came from. A row lists the values of a field, some of them grouped.
`Record.toJson` shows a row of one element as that element.
-/

namespace FoodScan

/-- An element of a row: a value, or a group of values. -/
inductive RowElement where
  | scalar (s : Scalar)
  | nested (items : List Scalar)
deriving DecidableEq, Repr

/-- The values of one field of one record, in order. -/
abbrev Row := List RowElement

namespace RowElement

/-- The values of an element. -/
def scalars : RowElement → List Scalar
  | .scalar s => [s]
  | .nested items => items

/-- Whether a value is among those of an element. -/
def holds (s : Scalar) : RowElement → Bool
  | .scalar t => t.same s
  | .nested items => items.any fun t => t.same s

def toJson : RowElement → Json
  | .scalar s => s.toJson
  | .nested items => .array (items.map Scalar.toJson)

end RowElement

namespace Row

/-- The values of a row in reading order, groups opened. -/
def scalars (row : Row) : List Scalar := row.flatMap RowElement.scalars

/-- Whether a value is in a row, by itself or in a group. -/
def holds (s : Scalar) (row : Row) : Bool := row.any (RowElement.holds s)

/-- A row as a list of its elements. -/
def listJson (row : Row) : Json := .array (row.map RowElement.toJson)

/-- A row as it is shown: a single element by itself. -/
def toJson : Row → Json
  | [element] => element.toJson
  | row => Row.listJson row

end Row

/-- One scanned item. -/
structure Record where
  identifier : Int64
  fields : KeyMap Row
  /-- The metadata file the record was read from. -/
  source : Option String
deriving DecidableEq

namespace Record

/-- A record without fields. -/
def new (identifier : Int64) : Record := ⟨identifier, KeyMap.empty, none⟩

/-- Gives a record a field, in place of one of that name. -/
def withField (r : Record) (name : String) (row : Row) : Record :=
  { r with fields := r.fields.insert name row }

/-- The record as a JSON object, a member a field. -/
def toJson (r : Record) : Json :=
  .object (r.fields.entries.map fun e => (e.1, Row.toJson e.2))

end Record

end FoodScan
