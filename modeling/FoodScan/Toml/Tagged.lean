import FoodScan.Toml.Number

/-!
# Tagged tables

A table can be the long form of a date or time: its first key is a fixed one, and the
value of that key is a string with the text of the date or time. `Value.settled?` puts
the date or time in the place of each such table.
-/

namespace FoodScan.Toml

/-- The key that, as the first of a table, makes it the long form of a date or time. -/
def datetimeKey : String := "$__toml_private_datetime"

namespace Value

/-- The date or time whose text a string is. -/
def datetimeOfText? : Value → Option Value
  | .string s =>
    match Number.datetime? s.toList with
    | some (d, []) => some d
    | _ => none
  | _ => none

mutual

/-- The value with dates and times in the place of their long forms. What else such a table holds
is of no effect; there is no value if a first key of that name has no text of a date or time. -/
def settled? : Value → Option Value
  | .array items => do return .array (← itemsSettled? items)
  | .table [] => some (.table [])
  | .table ((key, v) :: rest) =>
    if key = datetimeKey then v.datetimeOfText?
    else do return .table ((key, ← v.settled?) :: (← entriesSettled? rest))
  | v => some v

def itemsSettled? : List Value → Option (List Value)
  | [] => some []
  | v :: rest => do return (← v.settled?) :: (← itemsSettled? rest)

def entriesSettled? : List (String × Value) → Option (List (String × Value))
  | [] => some []
  | (key, v) :: rest => do return (key, ← v.settled?) :: (← entriesSettled? rest)

end

end Value

end FoodScan.Toml
