import FoodScan.Json.Reader
import FoodScan.Json.Printer
import FoodScan.Text.Quoted

/-!
# Reading where one type is expected

A place that admits one type refuses a value of another after reading as much of it as
tells what it is: a word, number or text whole, a list or object not at all.
-/

namespace FoodScan.Json.Reader

/-- A number as it is named in an error. -/
def describeNumber : Number → String
  | .integer n => "integer `" ++ toString n ++ "`"
  | .float x => "floating point `" ++ floatFormat.layout x ++ "`"

/-- The refusal of the value that text starts with, where `expected` was. -/
def invalidType (expected : String) (cs : List Char) : Fault :=
  let refuse (found : String) (rest : List Char) : Fault :=
    .before (.invalidType found expected) rest
  let afterWord (found : String) (letters rest : List Char) : Fault :=
    match word letters rest with
    | .ok rest => refuse found rest
    | .error fault => fault
  match cs with
  | 'n' :: rest => afterWord "null" "ull".toList rest
  | 't' :: rest => afterWord "boolean `true`" "rue".toList rest
  | 'f' :: rest => afterWord "boolean `false`" "alse".toList rest
  | '"' :: rest =>
    match text rest with
    | .ok (s, rest) => refuse ("string " ++ Text.displayQuoted s) rest
    | .error fault => fault
  | '[' :: _ => refuse "sequence" cs
  | '\x7b' :: _ => refuse "map" cs
  | [] => .on .expectedValue []
  | c :: _ =>
    if c = '-' || c.isDigit then
      match number cs with
      | .ok (n, rest) => refuse (describeNumber n) rest
      | .error fault => fault
    else .on .expectedValue cs

/-- Where a list whose item was refused is left: its closing bracket or the comma is still
taken, and the blanks after a comma. -/
def afterRefusedItem (rest : List Char) : List Char :=
  match skipBlanks rest with
  | ']' :: rest => rest
  | ',' :: rest => skipBlanks rest
  | rest => rest

end FoodScan.Json.Reader
