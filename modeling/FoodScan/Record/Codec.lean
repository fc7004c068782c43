import FoodScan.Record
import FoodScan.Json.Typed

/-!
# Rows as text

Scalars, row elements and rows have JSON texts of their own, written without a detour over
JSON values. Read back, a text is taken as the first of the alternatives of its type: a
scalar is a truth value, an integer, a float or a text, and an element a scalar or a list
of scalars.

* `Scalar.chars`, `RowElement.chars`, `Row.chars` write.
* `Scalar.ofAlternatives?`, `RowElement.ofAlternatives?`, `Row.ofAlternatives?` say what a
  JSON value is taken as.
* `Scalar.decode`, `RowElement.decode`, `Row.decode` read. A text that is JSON but not of
  the type is refused as a whole; an item of a row is refused where the row goes on after
  it.
-/

namespace FoodScan

open Json

/-! ## Writing -/

/-- The text of a scalar: null for a float that is not finite. -/
def Scalar.chars : Scalar → List Char
  | .bool b => if b then "true".toList else "false".toList
  | .int n => (toString n.toInt).toList
  | .float x => if x.isFinite then (floatFormat.layout x).toList else "null".toList
  | .text s => quoteChars s

/-- The text of a list of texts. -/
def listChars (items : List (List Char)) : List Char := '[' :: [','].intercalate items ++ [']']

/-- The text of an element. -/
def RowElement.chars : RowElement → List Char
  | .scalar s => s.chars
  | .nested items => listChars (items.map Scalar.chars)

/-- The text of a row, a list whatever its length. -/
def Row.chars (row : Row) : List Char := listChars (row.map RowElement.chars)

/-! ## Alternatives -/

/-- The scalar that a JSON value is taken as. -/
def Scalar.ofAlternatives? (v : Json) : Option Scalar :=
  v.toBool?.map .bool <|> v.toInt64?.map .int <|> v.toBinary64?.map .float <|>
    v.toText?.map .text

/-- The element that a JSON value is taken as. -/
def RowElement.ofAlternatives? (v : Json) : Option RowElement :=
  (Scalar.ofAlternatives? v).map .scalar <|>
    (v.items?.bind (List.mapM Scalar.ofAlternatives?)).map .nested

/-- The row that a JSON value is taken as. -/
def Row.ofAlternatives? (v : Json) : Option Row :=
  v.items?.bind (List.mapM RowElement.ofAlternatives?)

/-! ## Reading -/

/-- Reads a text as a JSON value that `convert` accepts. -/
def decodeAs (type : String) (convert : Json → Option α) (text : String) :
    Except ReadError α :=
  match Reader.value depthLimit text.toList with
  | .error fault => .error (fault.locate text)
  | .ok (v, rest) =>
    match convert v with
    | none => .error ⟨.noAlternative type, none⟩
    | some a =>
      match Reader.finish rest with
      | .error fault => .error (fault.locate text)
      | .ok () => .ok a

/-- Reads a scalar. -/
def Scalar.decode (text : String) : Except ReadError Scalar :=
  decodeAs "Scalar" Scalar.ofAlternatives? text

/-- Reads an element of a row. -/
def RowElement.decode (text : String) : Except ReadError RowElement :=
  decodeAs "RowElement" RowElement.ofAlternatives? text

namespace Row

/-- Reads an element inside a row. -/
def readElement (cs : List Char) : Except Fault (RowElement × List Char) := do
  let (v, rest) ← Reader.value (depthLimit - 1) cs
  match RowElement.ofAlternatives? v with
  | some element => return (element, rest)
  | none => .error (.before (.noAlternative "RowElement") (Reader.afterRefusedItem rest))

/-- Reads a row. -/
def readRow (cs : List Char) : Except Fault (Row × List Char) :=
  match Reader.skipBlanks cs with
  | [] => .error (.on .endInValue [])
  | '[' :: rest =>
    Text.scan (Reader.listStep readElement) (.error (.on .endInList [])) [] rest
  | cs => .error (Reader.invalidType "a sequence" cs)

/-- Reads a text as a row: a list of elements. -/
def decode (text : String) : Except ReadError Row := readAll readRow text

end Row

end FoodScan
