/-!
# Double-precision numbers

A number of the binary64 format of IEEE 754, held as its 64 bits, with rounding from
exact fractions. Everything is integer arithmetic on the bits, so each operation can be
evaluated and reasoned about.

* `Binary64.same` is numeric equality: a NaN equals nothing, the two zeros equal each
  other, and any other number equals itself alone.
* `Binary64.ofRatio` rounds a fraction to the nearest number, ties to the even
  significand, and to infinity beyond the largest one.
-/

namespace FoodScan

/-- A double-precision number, held as its bits. -/
structure Binary64 where
  bits : UInt64
deriving DecidableEq, Repr

namespace Binary64

/-! ## The fields of the format -/

/-- The bit above the 52 of the fraction: the lowest bit of the exponent field, and the leading bit
of a significand that is not written out. -/
def hiddenBit : Nat := 0x10000000000000

/-- The topmost bit. -/
def signBit : Nat := 0x8000000000000000

def isNegative (x : Binary64) : Bool := decide (signBit ≤ x.bits.toNat)

/-- The eleven bits below the sign. -/
def exponentField (x : Binary64) : Nat := x.bits.toNat / hiddenBit % 2048

/-- The lowest 52 bits. -/
def fractionField (x : Binary64) : Nat := x.bits.toNat % hiddenBit

/-- Neither an infinity nor a NaN. -/
def isFinite (x : Binary64) : Bool := decide (x.exponentField ≠ 2047)

def isNaN (x : Binary64) : Bool :=
  decide (x.exponentField = 2047) && decide (x.fractionField ≠ 0)

/-- One of the two zeros. -/
def isZero (x : Binary64) : Bool := decide (x.bits.toNat % signBit = 0)

/-- The integer `m` of a finite number `± m · 2 ^ q`. -/
def significand (x : Binary64) : Nat :=
  if x.exponentField = 0 then x.fractionField else hiddenBit + x.fractionField

/-- The power `q` of a finite number `± m · 2 ^ q`. -/
def scale (x : Binary64) : Int :=
  if x.exponentField = 0 then -1074 else (x.exponentField : Int) - 1075

/-- Numeric equality. -/
def same (x y : Binary64) : Bool :=
  !x.isNaN && !y.isNaN && (decide (x = y) || x.isZero && y.isZero)

/-! ## Exact fractions -/

/-- The magnitude of a finite number as a fraction of natural numbers. -/
def ratio (x : Binary64) : Nat × Nat :=
  if 0 ≤ x.scale then (x.significand * Nat.pow 2 x.scale.toNat, 1)
  else (x.significand, Nat.pow 2 (-x.scale).toNat)

/-- The quotient rounded to the nearest integer, a half to the even one. -/
def roundQuotient (num den : Nat) : Nat :=
  let q := num / den
  let r := num % den
  if 2 * r < den then q
  else if den < 2 * r then q + 1
  else if q % 2 = 0 then q else q + 1

/-- The bits of positive infinity. -/
def infinityBits : Nat := 2047 * hiddenBit

/-- The power of two of the last place of a number of magnitude `num / den`. -/
def lastPlace (num den : Nat) : Int :=
  -- the leading bit of the quotient stands at `2 ^ width` or one place below
  let width : Int := (Nat.log2 num : Int) - (Nat.log2 den : Int)
  let reaches : Bool :=
    if 0 ≤ width then decide (den * Nat.pow 2 width.toNat ≤ num)
    else decide (den ≤ num * Nat.pow 2 (-width).toNat)
  -- a significand has 53 bits, and no place is below `2 ^ -1074`
  max (-1074) (if reaches then width - 52 else width - 53)

/-- The number nearest to `num / den`, ties to the even significand; a negative sign gives its
opposite. -/
def ofRatio (negative : Bool) (num den : Nat) : Binary64 :=
  let q := lastPlace num den
  let m :=
    if 0 ≤ q then roundQuotient num (den * Nat.pow 2 q.toNat)
    else roundQuotient (num * Nat.pow 2 (-q).toNat) den
  -- the leading bit of the significand, and a carry out of it, add to the exponent field
  let magnitude := if num = 0 then 0 else min infinityBits ((q + 1074).toNat * hiddenBit + m)
  ⟨UInt64.ofNat (if negative then signBit + magnitude else magnitude)⟩

/-- The number nearest to an integer. -/
def ofInt (n : Int) : Binary64 := ofRatio (n < 0) n.natAbs 1

/-- The number nearest to `± digits · 10 ^ exponent`. -/
def ofDecimal (negative : Bool) (digits : Nat) (exponent : Int) : Binary64 :=
  if 0 ≤ exponent then ofRatio negative (digits * Nat.pow 10 exponent.toNat) 1
  else ofRatio negative digits (Nat.pow 10 (-exponent).toNat)

def zero : Binary64 := ⟨0⟩

def infinity : Binary64 := ⟨UInt64.ofNat infinityBits⟩

/-- A quiet NaN. -/
def nan : Binary64 := ⟨0x7ff8000000000000⟩

/-- The opposite number. -/
def neg (x : Binary64) : Binary64 := ⟨x.bits ^^^ 0x8000000000000000⟩

/-- The rounded product of two magnitudes. -/
def mulMagnitude (x y : Binary64) : Binary64 :=
  ofRatio false (x.ratio.1 * y.ratio.1) (x.ratio.2 * y.ratio.2)

/-- The rounded quotient of two magnitudes, the divisor not zero. -/
def divMagnitude (x y : Binary64) : Binary64 :=
  ofRatio false (x.ratio.1 * y.ratio.2) (x.ratio.2 * y.ratio.1)

/-- A finite number compared with an integer fraction: the sign of `x - num / den`. -/
def compareRatio (x : Binary64) (num : Int) (den : Nat) : Ordering :=
  let magnitude : Int := x.ratio.1
  let value := if x.isNegative then -magnitude else magnitude
  compare (value * den) (num * x.ratio.2)

/-- Whether a finite number is an integer. -/
def isWhole (x : Binary64) : Bool := decide (x.ratio.1 % x.ratio.2 = 0)

end Binary64

end FoodScan
