import FoodScan.Json
import FoodScan.Decimal
import FoodScan.Text.Quoted

/-!
# Scalars

The single values of a record. Equality is exact: an integer, a float of the same value
and a text of the same spelling are three different values. It is numeric on floats, so
a NaN equals nothing and the two zeros equal each other.
-/

namespace FoodScan

/-- A single value. -/
inductive Scalar where
  | bool (b : Bool)
  | int (n : Int64)
  | float (x : Binary64)
  | text (s : String)
deriving DecidableEq, Repr

namespace Scalar

/-- Exact equality of values. -/
def same : Scalar → Scalar → Bool
  | .bool a, .bool b => a == b
  | .int m, .int n => decide (m = n)
  | .float x, .float y => x.same y
  | .text s, .text t => s == t
  | _, _ => false

/-- A float that JSON cannot write. -/
def isNonFinite : Scalar → Bool
  | .float x => !x.isFinite
  | _ => false

/-! ## JSON -/

/-- The scalar a JSON value stands for. An integer beyond 64 signed bits becomes the float
nearest to it; null, lists and objects stand for none. -/
def ofJson? : Json → Option Scalar
  | .bool b => some (.bool b)
  | .number (.integer n) =>
    match int64? n with
    | some m => some (.int m)
    | none => some (.float (Binary64.ofInt n))
  | .number (.float x) => some (.float x)
  | .string s => some (.text s)
  | _ => none

/-- The JSON value of a scalar: null for a float that JSON cannot write. -/
def toJson : Scalar → Json
  | .bool b => .bool b
  | .int n => .number (.integer n.toInt)
  | .float x => if x.isFinite then .number (.float x) else .null
  | .text s => .string s

/-! ## Display -/

/-- Displayed floats never use a power of ten, and a whole one has no point. Of two decimals
equally near, the greater magnitude is shown. -/
def floatDisplay : DecimalFormat where
  tie := .away
  positional _ := true
  wholeSuffix := ""
  exponentPlus := ""

/-- The text of a scalar for readers. -/
def display : Scalar → String
  | .bool true => "true"
  | .bool false => "false"
  | .int n => toString n.toInt
  | .float x =>
    if x.isNaN then "NaN"
    else if x.isFinite then floatDisplay.layout x
    else if x.isNegative then "-inf" else "inf"
  | .text s => Text.displayQuoted s

end Scalar

end FoodScan
