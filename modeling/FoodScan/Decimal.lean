import FoodScan.Binary64

/-!
# Decimals

A decimal is a whole number of some power of ten. `Decimal.shortest` gives the decimal
that stands for a double: of the decimals that read back as it, the one on the coarsest
power-of-ten grid, and of two such the nearer. `DecimalFormat` says how a decimal is
laid out as text, and `DecimalFormat.layout` does it.
-/

namespace FoodScan

/-- The value `digits · 10 ^ exponent`. -/
structure Decimal where
  digits : Nat
  exponent : Int
deriving DecidableEq, Repr

/-- Which of two equally near decimals is taken. -/
inductive Tie where
  /-- The one whose last digit is even. -/
  | even
  /-- The one further from zero. -/
  | away
deriving DecidableEq, Repr

namespace Decimal

/-! ## The shortest decimal of a double -/

/-- The positive reals that round to a double, in units of a quarter of its last place: `value`
itself, the two ends, and whether the ends belong. -/
structure RoundingInterval where
  low : Nat
  value : Nat
  high : Nat
  closed : Bool
  /-- The power of two of the unit. -/
  unit : Int

/-- The interval of a positive finite double. Below a power of two the numbers lie twice as
dense, so the lower half is half as wide there. -/
def roundingInterval (x : Binary64) : RoundingInterval :=
  let m := x.significand
  let narrow := m = Binary64.hiddenBit ∧ x.scale ≠ -1074
  { low := 4 * m - (if narrow then 1 else 2)
    value := 4 * m
    high := 4 * m + 2
    closed := m % 2 = 0
    unit := x.scale - 2 }

/-- The grid point to take among multiples of `10 ^ place`, if one of the two next to the value
lies in the interval. -/
def gridPoint? (tie : Tie) (r : RoundingInterval) (place : Int) : Option Nat :=
  -- both the unit and the grid step are brought to one denominator
  let unit := if 0 ≤ r.unit then Nat.pow 2 r.unit.toNat else 1
  let unitDen := if 0 ≤ r.unit then 1 else Nat.pow 2 (-r.unit).toNat
  let step := (if 0 ≤ place then Nat.pow 10 place.toNat else 1) * unitDen
  let stepDen := if 0 ≤ place then 1 else Nat.pow 10 (-place).toNat
  let low := r.low * unit * stepDen
  let value := r.value * unit * stepDen
  let high := r.high * unit * stepDen
  -- if any grid point lies in the interval, so does one of the two next to the value
  let below := value / step
  let inside (n : Nat) : Bool :=
    let point := n * step
    if r.closed then decide (low ≤ point) && decide (point ≤ high)
    else decide (low < point) && decide (point < high)
  let toBelow := value - below * step
  let toAbove := (below + 1) * step - value
  match inside below, inside (below + 1) with
  | true, true =>
    if toBelow < toAbove then some below
    else if toAbove < toBelow then some (below + 1)
    else match tie with
      | .even => some (if below % 2 = 0 then below else below + 1)
      | .away => some (below + 1)
  | true, false => some below
  | false, true => some (below + 1)
  | false, false => none

/-- The coarsest grid from `10 ^ place` downwards, `steps` grids at most, that meets the
interval. -/
def coarsest (tie : Tie) (r : RoundingInterval) : Nat → Int → Decimal
  | 0, _ => ⟨0, 0⟩
  | steps + 1, place =>
    match gridPoint? tie r place with
    | some n => ⟨n, place⟩
    | none => coarsest tie r steps (place - 1)

/-- The shortest decimal of a positive finite double. No double reaches `10 ^ 309`, and every
double is a multiple of `10 ^ -1074`, so the search ends within these grids. -/
def shortest (tie : Tie) (x : Binary64) : Decimal :=
  coarsest tie (roundingInterval x) (309 + 1074 + 1) 309

end Decimal

/-! ## Layout -/

/-- How a finite double is written. -/
structure DecimalFormat where
  /-- Which of two equally short and near decimals is written. -/
  tie : Tie
  /-- Whether a leading digit at `10 ^ place` is written out in positional notation. -/
  positional : Int → Bool
  /-- What follows a whole number in positional notation. -/
  wholeSuffix : String
  /-- The sign of a power of ten that is not negative. -/
  exponentPlus : String

namespace DecimalFormat

/-- The text of the digits of `d`, its point placed or its power of ten written. -/
def layoutPositive (f : DecimalFormat) (d : Decimal) : String :=
  let digits := Nat.toDigits 10 d.digits
  -- the number of digits before the point
  let before : Int := digits.length + d.exponent
  if f.positional (before - 1) then
    if 0 ≤ d.exponent then
      String.ofList (digits ++ List.replicate d.exponent.toNat '0') ++ f.wholeSuffix
    else if 0 < before then
      String.ofList (digits.take before.toNat ++ '.' :: digits.drop before.toNat)
    else String.ofList ('0' :: '.' :: List.replicate (-before).toNat '0' ++ digits)
  else
    let power := before - 1
    let exponent := if power < 0 then toString power else f.exponentPlus ++ toString power
    let mantissa := match digits with
      | [d] => [d]
      | d :: rest => d :: '.' :: rest
      | [] => []
    String.ofList mantissa ++ "e" ++ exponent

/-- The text of a finite double. -/
def layout (f : DecimalFormat) (x : Binary64) : String :=
  let sign := if x.isNegative then "-" else ""
  if x.isZero then sign ++ "0" ++ f.wholeSuffix
  else sign ++ f.layoutPositive (Decimal.shortest f.tie x)

end DecimalFormat

end FoodScan
