import FoodScan.Toml.Value
import FoodScan.Text.Scan

/-!
# Numbers, dates and times in TOML

What starts like a number is read as a date or time if it is one, else as a float, else
as an integer. Digits may be parted by single underscores. An integer fits 64 signed
bits; a float beyond the greatest double is refused, one below the least becomes
negative infinity.
-/

namespace FoodScan.Toml.Number

open Text

/-! ## Digits -/

/-- Reads digits of a kind, single underscores between them; the underscores are dropped. -/
def moreDigits (isDigit : Char → Bool) : List Char → Option (List Char × List Char)
  | [] => some ([], [])
  | '_' :: c :: rest =>
    if isDigit c then do
      let (ds, rest) ← moreDigits isDigit rest
      return (c :: ds, rest)
    else none
  | c :: rest =>
    if isDigit c then do
      let (ds, rest) ← moreDigits isDigit rest
      return (c :: ds, rest)
    else if c = '_' then none
    else some ([], c :: rest)

/-- Reads one digit or more. -/
def digits? (isDigit : Char → Bool) : List Char → Option (List Char × List Char)
  | c :: rest => if isDigit c then moreDigits isDigit (c :: rest) else none
  | [] => none

/-- Reads a sign: whether it is a minus. -/
def sign : List Char → Bool × List Char
  | '+' :: rest => (false, rest)
  | '-' :: rest => (true, rest)
  | rest => (false, rest)

/-- Reads the digits of a decimal integer. A leading zero stands alone. -/
def whole? : List Char → Option (List Char × List Char)
  | '0' :: rest => some (['0'], rest)
  | cs => digits? Char.isDigit cs

/-- The number that decimal digits write. -/
def decimal (ds : List Char) : Nat := ds.foldl (fun n c => n * 10 + digitValue c) 0

/-- The integer of 64 signed bits of a sign and a magnitude. -/
def signed? (negative : Bool) (n : Nat) : Option Int64 :=
  int64? (if negative then -(n : Int) else n)

/-- Reads the digits of an integer in a base, after the mark of the base. -/
def based? (base : Nat) (cs : List Char) : Option (Value × List Char) := do
  let isDigit (c : Char) : Bool := ((hexValue? c).map (decide <| · < base)).getD false
  let (ds, rest) ← digits? isDigit cs
  return (.integer (← signed? false (← number? base ds)), rest)

/-- Reads an integer. -/
def integer? : List Char → Option (Value × List Char)
  | '0' :: 'x' :: rest => based? 16 rest
  | '0' :: 'o' :: rest => based? 8 rest
  | '0' :: 'b' :: rest => based? 2 rest
  | cs => do
    let (negative, cs) := sign cs
    let (ds, rest) ← whole? cs
    return (.integer (← signed? negative (decimal ds)), rest)

/-! ## Floats -/

/-- Reads a fraction, if there is one: its digits. -/
def fraction? : List Char → Option (List Char × List Char)
  | '.' :: rest => digits? Char.isDigit rest
  | rest => some ([], rest)

/-- Reads a power of ten, after its letter. -/
def power? (cs : List Char) : Option (Int × List Char) := do
  let (down, cs) := sign cs
  let (ds, rest) ← digits? Char.isDigit cs
  return (if down then -decimal ds else decimal ds, rest)

/-- Reads a power of ten, if there is one. -/
def exponent? : List Char → Option (Int × List Char)
  | 'e' :: rest => power? rest
  | 'E' :: rest => power? rest
  | rest => some (0, rest)

/-- The double of a decimal whose leading digit stands far outside the range of doubles is known
without working the power out. -/
def rounded (negative : Bool) (digits : Nat) (exponent : Int) : Binary64 :=
  let width : Int := (Nat.toDigits 10 digits).length
  if digits = 0 ∨ exponent + width < -400 then .ofRatio negative 0 1
  else if 400 < exponent + width then
    if negative then Binary64.infinity.neg else .infinity
  else .ofDecimal negative digits exponent

/-- Whether text starts with a fraction or a power of ten. -/
def startsFloat : List Char → Bool
  | c :: _ => c == '.' || c == 'e' || c == 'E'
  | [] => false

/-- Reads a float with digits. -/
def float? (cs : List Char) : Option (Value × List Char) := do
  let (negative, cs) := sign cs
  let (ds, rest) ← whole? cs
  if !startsFloat rest then none
  else
    let (fs, rest) ← fraction? rest
    let (e, rest) ← exponent? rest
    let x := rounded negative (decimal (ds ++ fs)) (e - fs.length)
    if x = .infinity then none else return (.float x, rest)

/-- Reads an infinity or a NaN. -/
def special? (cs : List Char) : Option (Value × List Char) :=
  let (negative, cs) := sign cs
  let signed (x : Binary64) : Value := .float (if negative then x.neg else x)
  match cs with
  | 'i' :: 'n' :: 'f' :: rest => some (signed .infinity, rest)
  | 'n' :: 'a' :: 'n' :: rest => some (signed .nan, rest)
  | _ => none

/-! ## Dates and times -/

/-- Reads a number of exactly `width` digits. -/
def fixed? (width : Nat) (cs : List Char) : Option (Nat × List Char) :=
  let ds := cs.take width
  if ds.length = width ∧ ds.all Char.isDigit then some (decimal ds, cs.drop width) else none

/-- Reads a date. -/
def date? (cs : List Char) : Option (Date × List Char) := do
  let (year, cs) ← fixed? 4 cs
  let (month, cs) ← fixed? 2 (← mark? '-' cs)
  let (day, cs) ← fixed? 2 (← mark? '-' cs)
  let d : Date := ⟨year, month, day⟩
  if d.isValid then return (d, cs) else none

/-- Reads a fraction of a second, if there is one, in billionths; further digits are cut. -/
def nanoseconds (cs : List Char) : Nat × List Char :=
  match cs with
  | '.' :: rest =>
    let ds := rest.takeWhile Char.isDigit
    if ds.isEmpty then (0, cs)
    else
      let kept := ds.take 9
      (decimal (kept ++ List.replicate (9 - kept.length) '0'), rest.drop ds.length)
  | _ => (0, cs)

/-- Reads a time. -/
def time? (cs : List Char) : Option (Time × List Char) := do
  let (hour, cs) ← fixed? 2 cs
  let (minute, cs) ← fixed? 2 (← mark? ':' cs)
  let (second, cs) ← fixed? 2 (← mark? ':' cs)
  let (nanosecond, cs) := nanoseconds cs
  let t : Time := ⟨hour, minute, second, nanosecond⟩
  if t.isValid then return (t, cs) else none

/-- Reads a signed offset. -/
def signedOffset? (negative : Bool) (cs : List Char) : Option (Offset × List Char) := do
  let (hours, cs) ← fixed? 2 cs
  let (minutes, cs) ← fixed? 2 (← mark? ':' cs)
  if hours ≤ 23 ∧ minutes ≤ 59 then
    let n : Int := hours * 60 + minutes
    return (.minutes (if negative then -n else n), cs)
  else none

/-- Reads an offset, if there is one. -/
def offset (cs : List Char) : Option Offset × List Char :=
  let signed (negative : Bool) (rest : List Char) : Option Offset × List Char :=
    match signedOffset? negative rest with
    | some (o, rest) => (some o, rest)
    | none => (none, cs)
  match cs with
  | 'Z' :: rest => (some .utc, rest)
  | 'z' :: rest => (some .utc, rest)
  | '+' :: rest => signed false rest
  | '-' :: rest => signed true rest
  | _ => (none, cs)

/-- Reads the time of a date, if there is one. -/
def timeOfDate? : List Char → Option (Time × List Char)
  | c :: rest => if c = 'T' ∨ c = 't' ∨ c = ' ' then time? rest else none
  | [] => none

/-- Reads a date, a time, or both. -/
def datetime? (cs : List Char) : Option (Value × List Char) :=
  match date? cs with
  | some (d, rest) =>
    match timeOfDate? rest with
    | some (t, rest) =>
      let (o, rest) := offset rest
      some (.datetime (.both d t o), rest)
    | none => some (.datetime (.date d), rest)
  | none => do
    let (t, rest) ← time? cs
    return (.datetime (.time t), rest)

/-- Reads what starts with a sign or a digit. -/
def read? (cs : List Char) : Option (Value × List Char) :=
  datetime? cs <|> float? cs <|> special? cs <|> integer? cs

end FoodScan.Toml.Number
