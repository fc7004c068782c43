import FoodScan.KeyMap
import FoodScan.Binary64
import FoodScan.Word

/-!
# JSON values

The dynamic values that documents, queries, schemas and records are read from and
written to. An object is a list of members; `Json.normalize` files them by key, the last
of a repeated key winning, and `Json.Canonical` describes the values every operation of
the library produces: keys ascending, integers of 64 bits, no number that JSON cannot
write.
-/

namespace FoodScan

namespace Json

/-- A number is an integer as long as it was written as one and fits 64 bits. -/
inductive Number where
  | integer (n : Int)
  | float (x : Binary64)
deriving DecidableEq, Repr

end Json

/-- A JSON value. -/
inductive Json where
  | null
  | bool (b : Bool)
  | number (n : Json.Number)
  | string (s : String)
  | array (items : List Json)
  | object (members : List (String × Json))
deriving Repr

namespace Json

instance : Inhabited Json := ⟨.null⟩

/-! ## Kinds -/

/-- The six kinds of values. -/
inductive Kind where
  | null | boolean | number | string | list | object
deriving DecidableEq, Repr

/-- The kind, with its article. -/
def Kind.description : Kind → String
  | .null => "null"
  | .boolean => "a boolean"
  | .number => "a number"
  | .string => "a string"
  | .list => "a list"
  | .object => "an object"

def kind : Json → Kind
  | .null => .null
  | .bool _ => .boolean
  | .number _ => .number
  | .string _ => .string
  | .array _ => .list
  | .object _ => .object

/-! ## Views -/

/-- The truth value that a value is. -/
def toBool? : Json → Option Bool
  | .bool b => some b
  | _ => none

/-- The integer that a value is, if it is one of 64 signed bits. -/
def toInt64? : Json → Option Int64
  | .number (.integer n) => int64? n
  | _ => none

/-- The double nearest to the number that a value is. -/
def toBinary64? : Json → Option Binary64
  | .number (.integer n) => some (Binary64.ofInt n)
  | .number (.float x) => some x
  | _ => none

/-- The text that a value is. -/
def toText? : Json → Option String
  | .string s => some s
  | _ => none

/-- The items of the list that a value is. -/
def items? : Json → Option (List Json)
  | .array items => some items
  | _ => none

/-! ## Normal form -/

mutual

/-- Files the members of every object by key; of a repeated key the last member stays. -/
def normalize : Json → Json
  | .null => .null
  | .bool b => .bool b
  | .number n => .number n
  | .string s => .string s
  | .array items => .array (normalizeItems items)
  | .object members => .object (Entries.ofList (normalizeMembers members))

def normalizeItems : List Json → List Json
  | [] => []
  | v :: rest => v.normalize :: normalizeItems rest

def normalizeMembers : List (String × Json) → List (String × Json)
  | [] => []
  | (key, v) :: rest => (key, v.normalize) :: normalizeMembers rest

end

/-- An integer is in the range of 64 bits, signed or unsigned; a float is finite. -/
def Number.InRange : Number → Prop
  | .integer n => -0x8000000000000000 ≤ n ∧ n < 0x10000000000000000
  | .float x => x.isFinite = true

/-- Keys ascend in every object and every number is in range. -/
inductive Canonical : Json → Prop where
  | null : Canonical .null
  | bool (b : Bool) : Canonical (.bool b)
  | number {n : Number} (h : n.InRange) : Canonical (.number n)
  | string (s : String) : Canonical (.string s)
  | array {items : List Json} (h : ∀ v ∈ items, Canonical v) : Canonical (.array items)
  | object {members : List (String × Json)} (ascending : Entries.Ascending members)
      (h : ∀ e ∈ members, Canonical e.2) : Canonical (.object members)

/-! ## Equality by value -/

/-- The order of two numbers by value, an integer against a float compared exactly. -/
def Number.compare : Number → Number → Ordering
  | .integer m, .integer n => Ord.compare m n
  | .float x, .integer n => x.compareRatio n 1
  | .integer m, .float y => (y.compareRatio m 1).swap
  | .float x, .float y =>
    let magnitude : Int := y.ratio.1
    x.compareRatio (if y.isNegative then -magnitude else magnitude) y.ratio.2

mutual

/-- Equality by which two numbers are equal when their values are. -/
def sameValue : Json → Json → Bool
  | .null, .null => true
  | .bool a, .bool b => a == b
  | .number m, .number n => m.compare n == .eq
  | .string s, .string t => s == t
  | .array xs, .array ys => sameItems xs ys
  | .object ms, .object ns => sameMembers ms ns
  | _, _ => false

def sameItems : List Json → List Json → Bool
  | [], [] => true
  | x :: xs, y :: ys => sameValue x y && sameItems xs ys
  | _, _ => false

def sameMembers : List (String × Json) → List (String × Json) → Bool
  | [], [] => true
  | (k, x) :: xs, (l, y) :: ys => k == l && sameValue x y && sameMembers xs ys
  | _, _ => false

end

end Json

end FoodScan
