/-!
# Punycode

Text in letters, digits and hyphens that stands for text in any characters: the ASCII
characters in front, then after a hyphen one number for each other character, which says
how far to go on, round by round, through the places and code points at which it can be
put in. The digits of a number run from the least to the greatest; how far a number
reaches is told by thresholds, which follow the sizes of the numbers before.
-/

namespace FoodScan.Url.Punycode

/-- The value of a digit: the letters, then the decimal digits. -/
def digit? (c : Char) : Option Nat :=
  if 'a' ≤ c ∧ c ≤ 'z' then some (c.toNat - 'a'.toNat)
  else if 'A' ≤ c ∧ c ≤ 'Z' then some (c.toNat - 'A'.toNat)
  else if '0' ≤ c ∧ c ≤ '9' then some (c.toNat - '0'.toNat + 26)
  else none

/-- The threshold of a digit; a digit below its threshold is the last of a number. -/
def threshold (position bias : Nat) : Nat := min 26 (max 1 (position - bias))

/-- How often a value is divided by 35 until it is small, and what is left of it. -/
def scaled (value : Nat) : Nat × Nat :=
  if 455 < value then
    let (times, rest) := scaled (value / 35)
    (times + 1, rest)
  else (0, value)
termination_by value
decreasing_by omega

/-- The bias after a number, which has put a character into a text of now `length` characters.
The first number counts for less. -/
def nextBias (first : Bool) (number length : Nat) : Nat :=
  let damped := number / (if first then 700 else 2)
  let (times, rest) := scaled (damped + damped / length)
  36 * times + 36 * rest / (rest + 38)

/-- The character of a code point, if there is one. -/
def char? (n : Nat) : Option Char := if h : n.isValidChar then some (Char.ofNatAux n h) else none

/-- Text under construction, and the number that is being read. -/
structure Decoding where
  text : List Char
  codePoint : Nat := 0x80
  /-- The place at which the number starts, which is nought for the first one only. -/
  start : Nat := 0
  /-- The part of the number that is read. -/
  number : Nat := 0
  weight : Nat := 1
  position : Nat := 36
  bias : Nat := 72

/-- Reads one digit, and puts a character in if it is the last of its number. -/
def Decoding.step (d : Decoding) (c : Char) : Option Decoding := do
  let value ← digit? c
  let number := d.number + value * d.weight
  let limit := threshold d.position d.bias
  if limit ≤ value then
    return { d with number, weight := d.weight * (36 - limit), position := d.position + 36 }
  else
    let length := d.text.length + 1
    let codePoint := d.codePoint + (d.start + number) / length
    let place := (d.start + number) % length
    return {
      text := d.text.take place ++ (← char? codePoint) :: d.text.drop place
      codePoint
      start := place + 1
      bias := nextBias (d.start == 0) number length }

/-- Parts text at its last hyphen; without one, all of it comes after. -/
def atLastHyphen (cs : List Char) : List Char × List Char :=
  let after := (cs.reverse.takeWhile (· != '-')).reverse
  (cs.take (cs.length - after.length - 1), after)

/-- The text that letters, digits and hyphens stand for; they must end with a whole number. -/
def decode? (cs : List Char) : Option (List Char) := do
  let (plain, digits) := atLastHyphen cs
  let d ← digits.foldlM Decoding.step { text := plain }
  if d.weight = 1 ∧ !digits.isEmpty then return d.text else none

end FoodScan.Url.Punycode
