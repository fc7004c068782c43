import FoodScan.Json
import FoodScan.Json.Fault

/-!
# Reading JSON

`Json.readRaw` gives the value with the members of every object as written, and
`Json.read` files them by key. Lists and objects nest at most 127 deep.

A number without point and exponent that fits 64 bits is an integer, except `-0`. Any
other number is a float: its leading digits up to 64 bits are rounded to a double, which
is then multiplied or divided by the power of ten, itself rounded.
-/

namespace FoodScan.Json

namespace Reader

open Text

def isBlank (c : Char) : Bool := c == ' ' || c == '\t' || c == '\n' || c == '\r'

def skipBlanks (cs : List Char) : List Char := cs.dropWhile isBlank

/-! ## Words -/

/-- Reads the rest of a fixed word. -/
def word : List Char → List Char → Except Fault (List Char)
  | [], rest => .ok rest
  | _ :: _, [] => .error (.before .endInValue [])
  | w :: ws, c :: rest =>
    if c = w then word ws rest else .error (.on .expectedIdent (c :: rest))

/-! ## Numbers -/

/-- Digits taken up so far, and the power of ten by which they fall short of what was read. -/
structure Digits where
  value : Nat
  power : Int
  /-- A digit did not fit 64 bits. -/
  full : Bool

/-- Whether a number fits 64 bits without a sign. -/
def fitsWord (n : Nat) : Bool := decide (n < 0x10000000000000000)

/-- Takes up a digit before the point; one that does not fit only raises the power. -/
def Digits.pushWhole (d : Digits) (c : Char) : Digits :=
  let next := d.value * 10 + digitValue c
  if d.full || !fitsWord next then { d with power := d.power + 1, full := true }
  else { d with value := next }

/-- Takes up a digit after the point; one that does not fit is dropped, and all after it. -/
def Digits.pushFraction (d : Digits) (c : Char) : Digits :=
  let next := d.value * 10 + digitValue c
  if d.full || !fitsWord next then { d with full := true }
  else { d with value := next, power := d.power - 1 }

/-- Divides by `10 ^ 308` as often as a power below `-308` asks, until nothing is left. -/
def scaleDown (x : Binary64) (down : Nat) : Binary64 × Nat :=
  if h : 308 < down ∧ x.isZero = false then
    scaleDown (x.divMagnitude (.ofDecimal false 1 308)) (down - 308)
  else (x, down)
termination_by down

/-- The float of digits and a power of ten; nothing if it is beyond every double. -/
def Digits.toFloat? (negative : Bool) (d : Digits) : Option Binary64 :=
  let start := Binary64.ofRatio false d.value 1
  let signed (x : Binary64) := if negative then x.neg else x
  if d.power < 0 then
    let (x, down) := scaleDown start (-d.power).toNat
    if x.isZero then some (signed x)
    else some (signed (x.divMagnitude (.ofDecimal false 1 down)))
  else if 308 < d.power then
    if start.isZero then some (signed start) else none
  else
    let x := start.mulMagnitude (.ofDecimal false 1 d.power)
    if x.isFinite then some (signed x) else none

/-- A float that ends before `rest`. -/
def finishFloat (negative : Bool) (d : Digits) (rest : List Char) :
    Except Fault (Number × List Char) :=
  match d.toFloat? negative with
  | some x => .ok (.float x, rest)
  | none => .error (.before .numberOutOfRange rest)

/-- The largest exponent that is counted; a longer one is as good as infinite. -/
def exponentLimit : Nat := 0x80000000

/-- Reads the digits of an exponent, giving nothing at the digit that passes the limit. -/
def exponentDigits (n : Nat) : List Char → Option Nat × List Char
  | [] => (some n, [])
  | c :: rest =>
    if c.isDigit then
      let next := n * 10 + digitValue c
      if exponentLimit ≤ next then (none, rest) else exponentDigits next rest
    else (some n, c :: rest)

/-- The sign of an exponent: whether it is negative, and what follows. -/
def exponentSign : List Char → Bool × List Char
  | '+' :: rest => (false, rest)
  | '-' :: rest => (true, rest)
  | rest => (false, rest)

/-- Reads an exponent, after its letter, and ends the float. -/
def exponent (negative : Bool) (d : Digits) (cs : List Char) :
    Except Fault (Number × List Char) :=
  let (down, cs) := exponentSign cs
  match cs with
  | [] => .error (.before .endInValue [])
  | c :: rest =>
    if c.isDigit then
      match exponentDigits (digitValue c) rest with
      | (some n, rest) =>
        finishFloat negative { d with power := if down then d.power - n else d.power + n } rest
      | (none, rest) =>
        -- only the sign of so long an exponent counts, and whether there is a digit but zero
        if d.value ≠ 0 ∧ !down then .error (.before .numberOutOfRange rest)
        else
          let x := if negative then Binary64.zero.neg else Binary64.zero
          .ok (.float x, rest.dropWhile Char.isDigit)
    else .error (.on .invalidNumber (c :: rest))

/-- Reads a fraction, after its point, and what may follow it. -/
def fraction (negative : Bool) (d : Digits) (cs : List Char) :
    Except Fault (Number × List Char) :=
  let digits := cs.takeWhile Char.isDigit
  let rest := cs.dropWhile Char.isDigit
  if digits.isEmpty then
    match rest with
    | [] => .error (.before .endInValue [])
    | _ => .error (.on .invalidNumber rest)
  else
    -- a digit that did not fit before the point may be followed by a smaller one that does
    let d := digits.foldl Digits.pushFraction { d with full := false }
    match rest with
    | 'e' :: rest => exponent negative d rest
    | 'E' :: rest => exponent negative d rest
    | rest => finishFloat negative d rest

/-- Ends a number that may have a fraction or an exponent. -/
def finishNumber (negative : Bool) (d : Digits) (rest : List Char) :
    Except Fault (Number × List Char) :=
  match rest with
  | '.' :: rest => fraction negative d rest
  | 'e' :: rest => exponent negative d rest
  | 'E' :: rest => exponent negative d rest
  | rest =>
    -- minus zero and what is below the signed range are floats
    if d.full then finishFloat negative d rest
    else if !negative then .ok (.integer d.value, rest)
    else if 1 ≤ d.value ∧ d.value ≤ 0x8000000000000000 then .ok (.integer (-d.value), rest)
    else .ok (.float (Binary64.ofRatio true d.value 1), rest)

/-- Reads a number, after its sign. A leading zero stands alone. -/
def unsigned (negative : Bool) : List Char → Except Fault (Number × List Char)
  | [] => .error (.before .endInValue [])
  | '0' :: rest =>
    if (rest.head?.map Char.isDigit).getD false then .error (.on .invalidNumber rest)
    else finishNumber negative ⟨0, 0, false⟩ rest
  | c :: rest =>
    if c.isDigit then
      let cs := c :: rest
      let d := (cs.takeWhile Char.isDigit).foldl Digits.pushWhole ⟨0, 0, false⟩
      finishNumber negative d (cs.dropWhile Char.isDigit)
    else .error (.on .invalidNumber (c :: rest))

/-- Reads a number. -/
def number : List Char → Except Fault (Number × List Char)
  | '-' :: rest => unsigned true rest
  | cs => unsigned false cs

/-! ## Text -/

/-- Reads four hexadecimal digits. -/
def hexQuad : List Char → Except Fault (Nat × List Char)
  | a :: b :: c :: d :: rest =>
    match number? 16 [a, b, c, d] with
    | some n => .ok (n, rest)
    | none => .error (.within .invalidEscape 4 (a :: b :: c :: d :: rest))
  | cs =>
    if utf8Length cs < 4 then .error (.before .endInString [])
    else .error (.within .invalidEscape 4 cs)

/-- Demands one more character of a surrogate pair. -/
def pairMark (mark : Char) : List Char → Except Fault (List Char)
  | [] => .error (.before .endInString [])
  | c :: rest => if c = mark then .ok rest else .error (.on .endOfHexEscape (c :: rest))

/-- Reads the character of an escape by number, after its `u`: one unit of UTF-16, or two. -/
def unicodeEscape (cs : List Char) : Except Fault (Char × List Char) := do
  let (n, rest) ← hexQuad cs
  if 0xDC00 ≤ n ∧ n ≤ 0xDFFF then .error (.before .loneSurrogate rest)
  else if 0xD800 ≤ n ∧ n ≤ 0xDBFF then
    let rest ← pairMark '\\' rest
    let rest ← pairMark 'u' rest
    let (low, rest) ← hexQuad rest
    if 0xDC00 ≤ low ∧ low ≤ 0xDFFF then
      .ok (Char.ofNat (0x10000 + (n - 0xD800) * 0x400 + (low - 0xDC00)), rest)
    else .error (.before .loneSurrogate rest)
  else .ok (Char.ofNat n, rest)

/-- Reads the character of an escape, after its backslash. -/
def escape : List Char → Except Fault (Char × List Char)
  | [] => .error (.before .endInString [])
  | '"' :: rest => .ok ('"', rest)
  | '\\' :: rest => .ok ('\\', rest)
  | '/' :: rest => .ok ('/', rest)
  | 'b' :: rest => .ok ('\x08', rest)
  | 'f' :: rest => .ok ('\x0c', rest)
  | 'n' :: rest => .ok ('\n', rest)
  | 'r' :: rest => .ok ('\r', rest)
  | 't' :: rest => .ok ('\t', rest)
  | 'u' :: rest => unicodeEscape rest
  | c :: rest => .error (.on .invalidEscape (c :: rest))

/-- Reads one character inside quotes, or the closing quote. The text read so far is kept in
reverse. -/
def textStep (read : List Char) : List Char → Except Fault (Progress (List Char) String)
  | [] => .error (.before .endInString [])
  | '"' :: rest => .ok (.done (String.ofList read.reverse) rest)
  | '\\' :: rest => do
    let (c, rest) ← escape rest
    .ok (.more (c :: read) rest)
  | c :: rest =>
    if c.toNat < 32 then .error (.on .controlCharacter (c :: rest))
    else .ok (.more (c :: read) rest)

/-- Reads text, after its opening quote. -/
def text (cs : List Char) : Except Fault (String × List Char) :=
  scan textStep (.error (.before .endInString [])) [] cs

/-! ## Lists and objects -/

/-- Comes to the next item of a list: its text, or what follows the closing bracket. -/
def nextItem (first : Bool) (cs : List Char) : Except Fault (List Char ⊕ List Char) :=
  match skipBlanks cs with
  | [] => .error (.on .endInList [])
  | ']' :: rest => .ok (.inr rest)
  | c :: rest =>
    if first then .ok (.inl (c :: rest))
    else if c = ',' then
      match skipBlanks rest with
      | [] => .error (.on .endInValue [])
      | ']' :: rest => .error (.on .trailingComma (']' :: rest))
      | rest => .ok (.inl rest)
    else .error (.on .expectedListCommaOrEnd (c :: rest))

/-- Reads one item of a list with `item`, or the closing bracket. -/
def listStep (item : List Char → Except Fault (α × List Char)) (read : List α)
    (cs : List Char) :
    Except Fault (Progress (List α) (List α)) := do
  match ← nextItem read.isEmpty cs with
  | .inr rest => .ok (.done read.reverse rest)
  | .inl cs =>
    let (v, rest) ← item cs
    .ok (.more (v :: read) rest)

/-- Comes to the next key of an object, after its quote, or to what follows the closing brace. -/
def nextKey (first : Bool) (cs : List Char) : Except Fault (List Char ⊕ List Char) :=
  match skipBlanks cs with
  | [] => .error (.on .endInObject [])
  | '\x7d' :: rest => .ok (.inr rest)
  | c :: rest =>
    if first then
      if c = '"' then .ok (.inl rest) else .error (.on .keyNotString (c :: rest))
    else if c = ',' then
      match skipBlanks rest with
      | [] => .error (.on .endInValue [])
      | '"' :: rest => .ok (.inl rest)
      | '\x7d' :: rest => .error (.on .trailingComma ('\x7d' :: rest))
      | rest => .error (.on .keyNotString rest)
    else .error (.on .expectedObjectCommaOrEnd (c :: rest))

/-- Reads the colon between a key and its value. -/
def colon (cs : List Char) : Except Fault (List Char) :=
  match skipBlanks cs with
  | [] => .error (.on .endInObject [])
  | ':' :: rest => .ok rest
  | rest => .error (.on .expectedColon rest)

/-- Reads one member of an object with `item`, or the closing brace. -/
def objectStep (item : List Char → Except Fault (α × List Char)) (read : List (String × α))
    (cs : List Char) :
    Except Fault (Progress (List (String × α)) (List (String × α))) := do
  match ← nextKey read.isEmpty cs with
  | .inr rest => .ok (.done read.reverse rest)
  | .inl cs =>
    let (key, rest) ← text cs
    let rest ← colon rest
    let (v, rest) ← item rest
    .ok (.more ((key, v) :: read) rest)

/-! ## Values -/

/-- Reads a value whose lists and objects nest at most `depth` deep, the members of an object in
text order. -/
def value (depth : Nat) (cs : List Char) : Except Fault (Json × List Char) :=
  match skipBlanks cs with
  | [] => .error (.on .endInValue [])
  | 'n' :: rest => do .ok (.null, ← word "ull".toList rest)
  | 't' :: rest => do .ok (.bool true, ← word "rue".toList rest)
  | 'f' :: rest => do .ok (.bool false, ← word "alse".toList rest)
  | '"' :: rest => do
    let (s, rest) ← text rest
    .ok (.string s, rest)
  | '[' :: rest =>
    match depth with
    | 0 => .error (.on .tooNested ('[' :: rest))
    | depth + 1 => do
      let (items, rest) ← scan (listStep (value depth)) (.error (.on .endInList [])) [] rest
      .ok (.array items, rest)
  | '\x7b' :: rest =>
    match depth with
    | 0 => .error (.on .tooNested ('\x7b' :: rest))
    | depth + 1 => do
      let (members, rest) ←
        scan (objectStep (value depth)) (.error (.on .endInObject [])) [] rest
      .ok (.object members, rest)
  | c :: rest =>
    if c = '-' || c.isDigit then do
      let (n, rest) ← number (c :: rest)
      .ok (.number n, rest)
    else .error (.on .expectedValue (c :: rest))

/-- Only blanks may follow. -/
def finish (rest : List Char) : Except Fault Unit :=
  match skipBlanks rest with
  | [] => .ok ()
  | rest => .error (.on .trailingCharacters rest)

end Reader

/-- The number of lists and objects that may be open at once. -/
def depthLimit : Nat := 127

/-- Runs a reader over a whole text. -/
def readAll (reader : List Char → Except Fault (α × List Char)) (text : String) :
    Except ReadError α :=
  let outcome := do
    let (v, rest) ← reader text.toList
    Reader.finish rest
    return v
  outcome.mapError (Fault.locate text)

/-- Reads a text, the members of each object in text order, a repeated key repeated. -/
def readRaw (text : String) : Except ReadError Json :=
  readAll (Reader.value depthLimit) text

/-- Reads a text. -/
def read (text : String) : Except ReadError Json :=
  (readRaw text).map normalize

end FoodScan.Json
