import FoodScan.Json
import FoodScan.Toml.Datetime

/-!
# TOML values

The values of a metadata file, and the JSON values they are handled as: dates and times
become their normal text, floats that JSON cannot write become null, and a table becomes
an object.
-/

namespace FoodScan.Toml

/-- A value of a metadata file; the keys of a table are distinct. -/
inductive Value where
  | string (s : String)
  | integer (n : Int64)
  | float (x : Binary64)
  | boolean (b : Bool)
  | datetime (d : Datetime)
  | array (items : List Value)
  | table (entries : List (String × Value))
deriving Repr

namespace Value

mutual

/-- The JSON value of a value. -/
def toJson : Value → Json
  | .string s => .string s
  | .integer n => .number (.integer n.toInt)
  | .float x => if x.isFinite then .number (.float x) else .null
  | .boolean b => .bool b
  | .datetime d => .string d.text
  | .array items => .array (itemsToJson items)
  | .table entries => .object (Entries.ofList (entriesToJson entries))

def itemsToJson : List Value → List Json
  | [] => []
  | v :: rest => v.toJson :: itemsToJson rest

def entriesToJson : List (String × Value) → List (String × Json)
  | [] => []
  | (key, v) :: rest => (key, v.toJson) :: entriesToJson rest

end

end Value

end FoodScan.Toml
