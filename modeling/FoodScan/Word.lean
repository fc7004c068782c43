/-!
# Integers of 64 bits

`int64?` gives the integer of 64 signed bits that equals a whole number, if there is one:
reading a number into 64 bits never wraps.
-/

namespace FoodScan

/-- The integer of 64 signed bits that equals `n`, if there is one. -/
def int64? (n : Int) : Option Int64 :=
  if -0x8000000000000000 ≤ n ∧ n < 0x8000000000000000 then some (Int64.ofInt n) else none

/-- Every integer of 64 bits is found again. -/
@[simp] theorem int64?_toInt (n : Int64) : int64? n.toInt = some n := by
  have hlow : -0x8000000000000000 ≤ n.toInt := n.le_toInt
  have hhigh : n.toInt < 0x8000000000000000 := n.toInt_lt
  simp [int64?, hlow, hhigh]

/-- What is found equals the number it was found for. -/
theorem toInt_of_int64? {n : Int} {m : Int64} (h : int64? n = some m) : m.toInt = n := by
  unfold int64? at h
  split at h
  · rename_i hrange
    obtain rfl := Option.some.inj h
    exact Int64.toInt_ofInt_of_le hrange.1 hrange.2
  · cases h

/-- An integer that fits into 64 bits is the value of one word, and one that does not of none. -/
theorem int64?_eq_some_iff {n : Int} {m : Int64} : int64? n = some m ↔ m.toInt = n :=
  ⟨toInt_of_int64?, fun h => h ▸ int64?_toInt m⟩

/-- Nothing is found exactly for the numbers that 64 signed bits do not hold. -/
theorem int64?_eq_none_iff {n : Int} :
    int64? n = none ↔ n < -0x8000000000000000 ∨ 0x8000000000000000 ≤ n := by
  unfold int64?
  split
  · rename_i hrange
    simp only [reduceCtorEq, false_iff]
    omega
  · rename_i hrange
    simp only [true_iff]
    omega

end FoodScan
