import FoodScan.Scalar

/-!
# Queries

A query asks for values of fields. For each field it gives a criterion: one value that
must be present, or a list of alternatives, of which each is one value or a group of
values that must be present together. `QueryError.message` words what can be wrong with
a query as it is written.
-/

namespace FoodScan

/-- How the answers for single fields combine. -/
inductive Mode where
  /-- Every field that a record has must match. -/
  | and
  /-- Some field that a record has must match. -/
  | or
deriving DecidableEq, Repr

/-- The name of a mode. -/
def Mode.name : Mode → String
  | .and => "and"
  | .or => "or"

/-- Values that must all be present. An empty group would hold for every row, so there is none. -/
structure AndGroup where
  scalars : List Scalar
  nonempty : scalars ≠ []
deriving DecidableEq, Repr

/-- The group of some values, if there are any. -/
def AndGroup.ofList? (scalars : List Scalar) : Option AndGroup :=
  if h : scalars = [] then none else some ⟨scalars, h⟩

/-- One alternative. -/
inductive Alternative where
  | one (s : Scalar)
  | all (group : AndGroup)
deriving DecidableEq, Repr

/-- What a field is asked for. -/
inductive Criterion where
  /-- A value that must be present. -/
  | one (s : Scalar)
  /-- Alternatives, one of which must be met. -/
  | anyOf (alternatives : List Alternative)
deriving DecidableEq, Repr

/-- Any one of some values. -/
def Criterion.anyOfScalars (scalars : List Scalar) : Criterion :=
  .anyOf (scalars.map .one)

/-- Criteria for fields, in the order in which they are evaluated, and how they combine. -/
structure Query where
  mode : Mode
  terms : List (String × Criterion)
deriving DecidableEq, Repr

/-- Whether no field is asked for. -/
def Query.isEmpty (q : Query) : Bool := q.terms.isEmpty

/-- What is wrong with a query as it is written. -/
inductive QueryError where
  /-- The text is no JSON object: what it is instead. -/
  | notAnObject (found : String)
  | invalidMode (name : String)
  | invalidValue (field : String) (found : Json.Kind)
  | tooDeep (field : String)
  | emptyGroup (field : String)
deriving DecidableEq, Repr

/-- The wording of an error. -/
def QueryError.message : QueryError → String
  | .notAnObject found =>
    "Query must be a JSON object mapping field names to values, got " ++ found
  | .invalidMode name =>
    "Unknown combination mode `" ++ name ++ "` (expected `and` or `or`)"
  | .invalidValue field found =>
    "Value for `" ++ field ++ "` must be a string, number or boolean, got " ++
      found.description
  | .tooDeep field => "Value for `" ++ field ++ "` nests lists more than two levels deep"
  | .emptyGroup field => "Value for `" ++ field ++ "` contains an empty AND-group"

/-- Reads the name of a mode, in letters of either case. -/
def Mode.parse (name : String) : Except QueryError Mode :=
  match name.toLower with
  | "and" | "all" => .ok .and
  | "or" | "any" => .ok .or
  | _ => .error (.invalidMode name)

end FoodScan
