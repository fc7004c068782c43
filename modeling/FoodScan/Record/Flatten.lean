import FoodScan.Record
import FoodScan.LoadError

/-!
# Flattening documents

A metadata document is a table whose members are values and tables of values. Flattening
drops the tables and keeps their members: every member of the document and of its tables
defines the field of its name, and of several definitions of one name the last one
counts. The document's own `gid` identifies the record, whatever its tables hold.
-/

namespace FoodScan

/-- The field that holds the identifier. -/
def identifierField : String := "gid"

/-! ## Rows -/

/-- The values of a list of scalars, or the kind of its first item that is none. -/
def scalarsOf (items : List Json) : Except Json.Kind (List Scalar) :=
  items.mapM fun v =>
    match Scalar.ofJson? v with
    | some s => .ok s
    | none => .error v.kind

/-- The row of a value: a scalar is one element, a list of scalars one group, and a list of
lists of scalars a group for each of them. -/
def Row.ofJson (v : Json) : Except Unsupported Row :=
  match v with
  | .array items =>
    -- an empty list counts as a list of scalars
    match items.mapM Json.items? with
    | some (first :: rest) =>
      (first :: rest).mapM fun inner =>
        match scalarsOf inner with
        | .ok scalars => .ok (.nested scalars)
        | .error kind => .error (.nestedListContains kind)
    | _ =>
      match scalarsOf items with
      | .ok scalars => .ok [.nested scalars]
      | .error kind => .error (.listContains kind)
  | v =>
    match Scalar.ofJson? v with
    | some s => .ok [.scalar s]
    | none => .error (.found v.kind)

/-! ## Documents -/

/-- The fields that one member of a document defines: those of a table, or itself. -/
def definitionsOf (e : String × Json) : List (String × Json) :=
  match e.2 with
  | .object members => members
  | _ => [e]

/-- The fields that a document defines, in order. -/
def definitions (members : List (String × Json)) : List (String × Json) :=
  members.flatMap definitionsOf

/-- The row of a field, or the error that names it. -/
def fieldRow (path : String) (e : String × Json) : Except LoadError (String × Row) :=
  match Row.ofJson e.2 with
  | .ok row => .ok (e.1, row)
  | .error why => .error (.unsupportedValue path e.1 why)

/-- The record of a document that was read from a file. -/
def flatten (document : Json) (path : String) : Except LoadError Record :=
  match document with
  | .object members =>
    match (members.lookup identifierField).bind Json.toInt64? with
    | none => .error (.missingIdentifier path)
    | some identifier => do
      let rows ← (definitions members).mapM (fieldRow path)
      return { identifier, fields := KeyMap.ofList rows, source := some path }
  | other => .error (.malformed path (.notTable other.kind))

end FoodScan
