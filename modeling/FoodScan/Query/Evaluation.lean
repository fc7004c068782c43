import FoodScan.Query
import FoodScan.Record

/-!
# Evaluating queries

A record is asked for every field of a query in turn. A field that it lacks counts
neither for nor against it and leaves a warning; the other fields decide by the query's
mode. Every field is visited whatever has been decided, so the warnings depend on the
field names alone.

* `Query.evaluate` answers for one record and adds its warnings to a list.
* `Query.collect` answers for a list of records: the identifiers of those that match,
  strictly ascending, and the warnings in record order.
-/

namespace FoodScan

/-- A field of a query that a record lacks. -/
structure Warning where
  field : String
  record : Int64
deriving DecidableEq, Repr

/-- The wording of a warning about a field. -/
def unknownFieldMessage (field : String) : String := "`" ++ field ++ "` is not a valid parameter"

/-- The wording of a warning. -/
def Warning.message (w : Warning) : String := unknownFieldMessage w.field

/-! ## One field -/

/-- Whether a row meets an alternative. -/
def Alternative.meets (row : Row) : Alternative → Bool
  | .one s => Row.holds s row
  | .all group => group.scalars.all fun s => Row.holds s row

/-- Whether a row meets a criterion. -/
def Criterion.meets (row : Row) : Criterion → Bool
  | .one s => Row.holds s row
  | .anyOf alternatives => alternatives.any (Alternative.meets row)

namespace Query

/-! ## One record -/

/-- The answer before any field is asked for. -/
def start : Mode → Bool
  | .and => true
  | .or => false

/-- Takes one more answer into account. -/
def combine : Mode → Bool → Bool → Bool
  | .and, satisfied, answer => satisfied && answer
  | .or, satisfied, answer => satisfied || answer

/-- Asks a record for one field. -/
def ask (mode : Mode) (r : Record) (state : Bool × List Warning) (t : String × Criterion) :
    Bool × List Warning :=
  match r.fields.get? t.1 with
  | none => (state.1, state.2 ++ [⟨t.1, r.identifier⟩])
  | some row => (combine mode state.1 (t.2.meets row), state.2)

/-- Whether a record satisfies a query, its warnings added to those in `sink`. -/
def evaluate (q : Query) (r : Record) (sink : List Warning) : Bool × List Warning :=
  q.terms.foldl (ask q.mode r) (start q.mode, sink)

/-- Whether a record satisfies a query. -/
def matchesRecord (q : Query) (r : Record) : Bool := (q.evaluate r []).1

end Query

/-! ## Many records -/

/-- Drops every item that equals the one before it. -/
def dropRepeats [DecidableEq α] : List α → List α
  | [] => []
  | [x] => [x]
  | x :: y :: rest => if x = y then dropRepeats (y :: rest) else x :: dropRepeats (y :: rest)

/-- The answer of a query to a list of records. -/
structure Outcome where
  /-- Strictly ascending. -/
  ids : List Int64
  /-- In record order, then in the order of the query's fields. -/
  warnings : List Warning
deriving DecidableEq, Repr

/-- The identifiers of the records that satisfy a query, and the warnings. -/
def Query.collect (records : List Record) (q : Query) : Outcome :=
  let answers := records.map fun r => (r.identifier, q.evaluate r [])
  let ids := answers.filterMap fun a => if a.2.1 then some a.1 else none
  { ids := dropRepeats (ids.mergeSort fun a b => decide (a ≤ b))
    warnings := answers.flatMap fun a => a.2.2 }

end FoodScan
