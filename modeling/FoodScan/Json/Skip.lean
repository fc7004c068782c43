import FoodScan.Json.Reader

/-!
# Skipping JSON values

A value that nobody asks for is passed over without being built: lists and objects may
nest to any depth, numbers may be of any size, and an escape by number is only checked
for its digits.
-/

namespace FoodScan.Json.Reader

open Text

/-! ## Numbers and text -/

/-- Passes over the rest of an exponent, after its letter. -/
def skipExponent (cs : List Char) : Except Fault (List Char) :=
  match (exponentSign cs).2 with
  | [] => .error (.before .invalidNumber [])
  | c :: rest =>
    if c.isDigit then .ok (rest.dropWhile Char.isDigit)
    else .error (.on .invalidNumber (c :: rest))

/-- Passes over an exponent, if there is one. -/
def skipPower : List Char → Except Fault (List Char)
  | 'e' :: rest => skipExponent rest
  | 'E' :: rest => skipExponent rest
  | rest => .ok rest

/-- Passes over a fraction and an exponent, if there are any. -/
def skipFraction : List Char → Except Fault (List Char)
  | '.' :: rest =>
    match rest with
    | [] => .error (.on .invalidNumber [])
    | c :: after =>
      if c.isDigit then skipPower (after.dropWhile Char.isDigit)
      else .error (.on .invalidNumber (c :: after))
  | rest => skipPower rest

/-- Passes over a number, after its sign. -/
def skipUnsigned : List Char → Except Fault (List Char)
  | [] => .error (.before .invalidNumber [])
  | '0' :: rest =>
    if (rest.head?.map Char.isDigit).getD false then .error (.on .invalidNumber rest)
    else skipFraction rest
  | c :: rest =>
    if c.isDigit then skipFraction (rest.dropWhile Char.isDigit)
    else .error (.on .invalidNumber (c :: rest))

/-- Passes over an escape, after its backslash. -/
def skipEscape : List Char → Except Fault (List Char)
  | [] => .error (.before .endInString [])
  | 'u' :: rest => do return (← hexQuad rest).2
  | c :: rest =>
    if c ∈ ['"', '\\', '/', 'b', 'f', 'n', 'r', 't'] then .ok rest
    else .error (.on .invalidEscape (c :: rest))

/-- Passes over one character inside quotes, or the closing quote. -/
def skipTextStep (_ : Unit) : List Char → Except Fault (Progress Unit Unit)
  | [] => .error (.before .endInString [])
  | '"' :: rest => .ok (.done () rest)
  | '\\' :: rest => do return .more () (← skipEscape rest)
  | c :: rest =>
    if c.toNat < 32 then .error (.before .controlCharacter (c :: rest))
    else .ok (.more () rest)

/-- Passes over text, after its opening quote. -/
def skipText (cs : List Char) : Except Fault (List Char) := do
  let ((), rest) ← scan skipTextStep (.error (.before .endInString [])) () cs
  return rest

/-! ## Lists and objects -/

/-- A bracket or brace that is open. -/
inductive Enclosure where
  | list
  | object
deriving DecidableEq

namespace Enclosure

def closer : Enclosure → Char
  | .list => ']'
  | .object => '\x7d'

def atEnd : Enclosure → Cause
  | .list => .endInList
  | .object => .endInObject

def expected : Enclosure → Cause
  | .list => .expectedListCommaOrEnd
  | .object => .expectedObjectCommaOrEnd

end Enclosure

/-- Closes what closes here, and passes a comma if there may be one: what is open then, the
innermost first, or that nothing is. -/
def skipClosers (afterValue : Bool) : List Enclosure → List Char →
    Except Fault (List Enclosure × List Char)
  | [], cs => .ok ([], cs)
  | inner :: outer, cs =>
    match skipBlanks cs with
    | [] => .error (.on inner.atEnd [])
    | c :: rest =>
      if afterValue && c == ',' then .ok (inner :: outer, rest)
      else if c = inner.closer then skipClosers true outer rest
      else if afterValue then .error (.on inner.expected (c :: rest))
      else .ok (inner :: outer, c :: rest)

/-- Passes over the key of a member and its colon, in an object. -/
def skipKey : List Enclosure → List Char → Except Fault (List Char)
  | .object :: _, cs =>
    match skipBlanks cs with
    | [] => .error (.on .endInObject [])
    | '"' :: rest => do colon (← skipText rest)
    | rest => .error (.on .keyNotString rest)
  | _, cs => .ok cs

/-- Passes over a scalar or an opening bracket, and all that closes after it. -/
def skipStep (opened : List Enclosure) (cs : List Char) :
    Except Fault (Progress (List Enclosure) Unit) := do
  let onward (afterValue : Bool) (opened : List Enclosure) (rest : List Char) :
      Except Fault (Progress (List Enclosure) Unit) := do
    match ← skipClosers afterValue opened rest with
    | ([], rest) => return .done () rest
    | (opened, rest) => return .more opened (← skipKey opened rest)
  match skipBlanks cs with
  | [] => .error (.on .endInValue [])
  | 'n' :: rest => onward true opened (← word "ull".toList rest)
  | 't' :: rest => onward true opened (← word "rue".toList rest)
  | 'f' :: rest => onward true opened (← word "alse".toList rest)
  | '-' :: rest => onward true opened (← skipUnsigned rest)
  | '"' :: rest => onward true opened (← skipText rest)
  | '[' :: rest => onward false (.list :: opened) rest
  | '\x7b' :: rest => onward false (.object :: opened) rest
  | c :: rest =>
    if c.isDigit then onward true opened (← skipUnsigned (c :: rest))
    else .error (.on .expectedValue (c :: rest))

/-- Passes over a value. -/
def skipValue (cs : List Char) : Except Fault (List Char) := do
  let ((), rest) ← scan skipStep (.error (.on .endInValue [])) [] cs
  return rest

end FoodScan.Json.Reader
