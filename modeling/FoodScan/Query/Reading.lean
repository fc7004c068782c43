import FoodScan.Query
import FoodScan.Json.Reader

/-!
# Reading queries

A query is written as a JSON object from field names to criteria: a scalar, or a list of
alternatives, each a scalar or a list of scalars. The members are taken in key order,
and the first offender in that order, and within a criterion in text order, is reported.
-/

namespace FoodScan

/-- The scalar of a JSON value. -/
def scalarFor (field : String) (v : Json) : Except QueryError Scalar :=
  match Scalar.ofJson? v with
  | some s => .ok s
  | none => .error (.invalidValue field v.kind)

/-- The scalar of an item of a group: a list is one level too deep. -/
def groupItem (field : String) : Json → Except QueryError Scalar
  | .array _ => .error (.tooDeep field)
  | v => scalarFor field v

namespace Alternative

/-- The alternative of a JSON value. -/
def ofJson (field : String) : Json → Except QueryError Alternative
  | .array items => do
    let scalars ← items.mapM (groupItem field)
    match AndGroup.ofList? scalars with
    | some group => return .all group
    | none => .error (.emptyGroup field)
  | v => do return .one (← scalarFor field v)

/-- The JSON value of an alternative. -/
def toJson : Alternative → Json
  | .one s => s.toJson
  | .all group => .array (group.scalars.map Scalar.toJson)

end Alternative

namespace Criterion

/-- The criterion of a JSON value. -/
def ofJson (field : String) : Json → Except QueryError Criterion
  | .array items => do return .anyOf (← items.mapM (Alternative.ofJson field))
  | v => do return .one (← scalarFor field v)

/-- The JSON value of a criterion. -/
def toJson : Criterion → Json
  | .one s => s.toJson
  | .anyOf alternatives => .array (alternatives.map Alternative.toJson)

end Criterion

namespace Query

/-- The term of a member of a query. -/
def termOf (e : String × Json) : Except QueryError (String × Criterion) := do
  return (e.1, ← Criterion.ofJson e.1 e.2)

/-- The query of a JSON value. -/
def ofJson (mode : Mode) : Json → Except QueryError Query
  | .object members => do return ⟨mode, ← members.mapM termOf⟩
  | v => .error (.notAnObject v.kind.description)

/-- The query of a text. -/
def parse (mode : Mode) (text : String) : Except QueryError Query :=
  match Json.read text with
  | .ok v => ofJson mode v
  | .error e => .error (.notAnObject ("invalid JSON (" ++ e.message ++ ")"))

/-- The JSON object of a query, its fields filed by name. -/
def toJson (q : Query) : Json :=
  .object (Entries.ofList (q.terms.map fun t => (t.1, t.2.toJson)))

end Query

end FoodScan
