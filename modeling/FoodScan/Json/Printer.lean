import FoodScan.Json
import FoodScan.Decimal

/-!
# Writing JSON

`Json.render` writes a value without blanks. Text is quoted by `quoteChars`: only the
quote, the backslash and the control characters below U+0020 are escaped, so a written
value is always one line. A float is written with the fewest digits that read back.
-/

namespace FoodScan

namespace Json

/-! ## Text -/

/-- The hexadecimal digit of a number below sixteen, in lower case. -/
def hexDigit (n : Nat) : Char := Nat.digitChar n

/-- A character inside quotes. -/
def escapeChar (c : Char) : List Char :=
  if c = '"' then ['\\', '"']
  else if c = '\\' then ['\\', '\\']
  else if c = '\x08' then ['\\', 'b']
  else if c = '\t' then ['\\', 't']
  else if c = '\n' then ['\\', 'n']
  else if c = '\x0c' then ['\\', 'f']
  else if c = '\r' then ['\\', 'r']
  else if c.toNat < 32 then
    ['\\', 'u', '0', '0', hexDigit (c.toNat / 16), hexDigit (c.toNat % 16)]
  else [c]

/-- Text in quotes. -/
def quoteChars (s : String) : List Char :=
  '"' :: s.toList.flatMap escapeChar ++ ['"']

/-- Text in quotes. -/
def quote (s : String) : String := String.ofList (quoteChars s)

/-! ## Numbers -/

/-- Floats are written positionally from `10 ^ -5` up to below `10 ^ 16`, always with a point
there; of two decimals equally near the one with the even last digit is written. -/
def floatFormat : DecimalFormat where
  tie := .even
  positional place := decide (-5 ≤ place) && decide (place < 16)
  wholeSuffix := ".0"
  exponentPlus := "+"

def Number.chars : Number → List Char
  | .integer n => (toString n).toList
  | .float x => (floatFormat.layout x).toList

/-! ## Values -/

mutual

/-- The text of a value. -/
def chars : Json → List Char
  | .null => "null".toList
  | .bool true => "true".toList
  | .bool false => "false".toList
  | .number n => n.chars
  | .string s => quoteChars s
  | .array items => '[' :: [','].intercalate (itemChars items) ++ [']']
  | .object members => '\x7b' :: [','].intercalate (memberChars members) ++ ['\x7d']

def itemChars : List Json → List (List Char)
  | [] => []
  | v :: rest => v.chars :: itemChars rest

def memberChars : List (String × Json) → List (List Char)
  | [] => []
  | (key, v) :: rest => (quoteChars key ++ ':' :: v.chars) :: memberChars rest

end

/-- The text of a value. -/
def render (v : Json) : String := String.ofList v.chars

end Json

end FoodScan
