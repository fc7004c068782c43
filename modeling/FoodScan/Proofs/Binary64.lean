import Mathlib
import FoodScan.Binary64

/-!
# The numbers that doubles stand for

`Binary64.same` and `Binary64.ofRatio` work on bits. This module ties them to numbers.

* `same_iff_equals` — `same` is numeric equality: finite doubles are the same if and only if
  they have the same value, an infinity is the same as itself alone, and a NaN as nothing.
* `exponentField_ofRatio_le` — the rounded quotient of a fraction up to `2 ^ k` has at most the
  exponent of `2 ^ (k + 1)`; in particular it is finite as long as that is.
* `isFinite_ofInt` — the double nearest to an integer of 64 bits is finite.
* `exponentField_divMagnitude_le` — a quotient is bounded by what is divided, less what it is
  divided by.

Every finite double is a whole multiple of `2 ^ -1074`. Values are therefore compared as integers,
in that unit.
-/

namespace FoodScan.Binary64

-- ---------------------------------------------------------------------------
-- Fields
-- ---------------------------------------------------------------------------

theorem bits_lt (x : Binary64) : x.bits.toNat < 2 ^ 64 := x.bits.toNat_lt

/-- The fraction has 52 bits. -/
theorem fractionField_lt (x : Binary64) : x.fractionField < 2 ^ 52 := by
  unfold fractionField hiddenBit
  omega

/-- A float is its bits. -/
theorem eq_of_bits {x y : Binary64} (h : x.bits.toNat = y.bits.toNat) : x = y := by
  cases x
  cases y
  exact congrArg Binary64.mk (UInt64.toNat_inj.mp h)

/-- The bits below the sign are the exponent field and the fraction field. -/
theorem magnitude_eq (x : Binary64) :
    x.bits.toNat % signBit = x.exponentField * 2 ^ 52 + x.fractionField := by
  have := x.bits_lt
  unfold exponentField fractionField hiddenBit signBit
  omega

/-- A double is known by its sign and the bits below. -/
theorem eq_of_sign_of_magnitude {x y : Binary64} (hSign : x.isNegative = y.isNegative)
    (hMag : x.bits.toNat % signBit = y.bits.toNat % signBit) : x = y := by
  have hx := x.bits_lt
  have hy := y.bits_lt
  apply eq_of_bits
  rw [isNegative, isNegative, decide_eq_decide] at hSign
  unfold signBit at hSign hMag
  omega

-- ---------------------------------------------------------------------------
-- Values
-- ---------------------------------------------------------------------------

/-- The magnitude of a finite double, in units of `2 ^ -1074`. -/
def unitsAbs (x : Binary64) : Nat := x.significand * 2 ^ (x.scale + 1074).toNat

/-- The value of a finite double, in units of `2 ^ -1074`. -/
def units (x : Binary64) : Int := if x.isNegative then -x.unitsAbs else x.unitsAbs

/-- Numeric equality, said of values. -/
inductive Equals : Binary64 → Binary64 → Prop
  /-- Finite doubles are equal when their values are. -/
  | finite {x y : Binary64} (hx : x.isFinite = true) (hy : y.isFinite = true)
      (h : x.units = y.units) : Equals x y
  /-- An infinity equals itself. -/
  | infinite {x : Binary64} (hInf : x.isFinite = false) (hNum : x.isNaN = false) : Equals x x

/-- With exponent field `e`, the magnitude stays below `2 ^ (52 + e)` units. -/
theorem unitsAbs_lt (x : Binary64) : x.unitsAbs < 2 ^ (52 + x.exponentField) := by
  have hFrac := x.fractionField_lt
  unfold unitsAbs significand scale
  split
  · rename_i hZero
    rw [hZero]
    simpa using hFrac
  · -- a normal number: the hidden bit makes 53 bits, shifted by its exponent less one
    rename_i hPos
    have hShift : ((x.exponentField : Int) - 1075 + 1074).toNat = x.exponentField - 1 := by omega
    have hSplit : 52 + x.exponentField = 53 + (x.exponentField - 1) := by omega
    rw [hShift, hSplit, pow_add]
    refine Nat.mul_lt_mul_of_pos_right ?_ (by positivity)
    unfold hiddenBit
    omega

/-- With exponent field `e`, not zero, the magnitude is at least `2 ^ (51 + e)` units. -/
theorem le_unitsAbs {x : Binary64} (h : x.exponentField ≠ 0) :
    2 ^ (51 + x.exponentField) ≤ x.unitsAbs := by
  have hShift : ((x.exponentField : Int) - 1075 + 1074).toNat = x.exponentField - 1 := by omega
  have hSplit : 51 + x.exponentField = 52 + (x.exponentField - 1) := by omega
  rw [unitsAbs, significand, scale, if_neg h, if_neg h, hShift, hSplit, pow_add]
  refine Nat.mul_le_mul_right _ ?_
  unfold hiddenBit
  omega

/-- Equal magnitudes have equal exponent fields: the magnitudes of different ones do not
overlap. -/
theorem exponentField_eq_of_unitsAbs_eq {x y : Binary64} (h : x.unitsAbs = y.unitsAbs) :
    x.exponentField = y.exponentField := by
  -- the magnitudes of two exponents are apart, so neither exponent is below the other
  have key : ∀ {x y : Binary64}, x.unitsAbs = y.unitsAbs →
      ¬ x.exponentField < y.exponentField := by
    intro x y h hlt
    have hUpper := x.unitsAbs_lt
    have hLower := le_unitsAbs (x := y) (by omega)
    have hPow : 2 ^ (52 + x.exponentField) ≤ 2 ^ (51 + y.exponentField) :=
      Nat.pow_le_pow_right (by decide) (by omega)
    omega
  have h1 := key h
  have h2 := key h.symm
  omega

/-- Equal magnitudes have equal bits below the sign. -/
theorem magnitude_eq_of_unitsAbs_eq {x y : Binary64} (h : x.unitsAbs = y.unitsAbs) :
    x.bits.toNat % signBit = y.bits.toNat % signBit := by
  have hExp := exponentField_eq_of_unitsAbs_eq h
  have hSig : x.significand = y.significand := by
    rw [unitsAbs, unitsAbs, scale, scale, hExp] at h
    exact Nat.eq_of_mul_eq_mul_right (by positivity) h
  rw [magnitude_eq, magnitude_eq, hExp]
  rw [significand, significand, hExp] at hSig
  split at hSig <;> omega

/-- Only zeros have no magnitude. -/
theorem unitsAbs_eq_zero_iff {x : Binary64} : x.unitsAbs = 0 ↔ x.isZero = true := by
  rw [isZero, decide_eq_true_eq, magnitude_eq, unitsAbs, mul_eq_zero, significand]
  have hPow : (2 : Nat) ^ (x.scale + 1074).toNat ≠ 0 := by positivity
  unfold hiddenBit
  split <;> omega

/-- Zeros are finite. -/
theorem isFinite_of_isZero {x : Binary64} (h : x.isZero = true) : x.isFinite = true := by
  rw [isZero, decide_eq_true_eq, magnitude_eq] at h
  rw [isFinite, decide_eq_true_eq]
  omega

/-- What is finite is a number. -/
theorem isNaN_eq_false_of_isFinite {x : Binary64} (h : x.isFinite = true) : x.isNaN = false := by
  rw [isFinite, decide_eq_true_eq] at h
  simp [isNaN, h]

/-- Finite doubles have the same value only if they are one, or both zeros. -/
theorem eq_or_isZero_of_units_eq {x y : Binary64} (h : x.units = y.units) :
    x = y ∨ (x.isZero = true ∧ y.isZero = true) := by
  have hAbs : x.unitsAbs = y.unitsAbs := by
    unfold units at h
    split at h <;> split at h <;> omega
  by_cases hSign : x.isNegative = y.isNegative
  · exact Or.inl (eq_of_sign_of_magnitude hSign (magnitude_eq_of_unitsAbs_eq hAbs))
  · -- opposite signs leave zero as the only common value
    have hZero : x.unitsAbs = 0 := by
      unfold units at h
      cases hx : x.isNegative <;> cases hy : y.isNegative <;> simp [hx, hy] at hSign h <;> omega
    exact Or.inr ⟨unitsAbs_eq_zero_iff.mp hZero, unitsAbs_eq_zero_iff.mp (hAbs ▸ hZero)⟩

/-- **Sameness is numeric equality.** -/
theorem same_iff_equals {x y : Binary64} : x.same y = true ↔ Equals x y := by
  unfold same
  simp only [Bool.and_eq_true, Bool.or_eq_true, Bool.not_eq_true', decide_eq_true_eq]
  constructor
  · -- equal bits are one value, finite or not; two zeros have the same units, whatever their signs
    rintro ⟨⟨hx, -⟩, rfl | ⟨hxZero, hyZero⟩⟩
    · by_cases hFin : x.isFinite = true
      · exact .finite hFin hFin rfl
      · exact .infinite (Bool.not_eq_true _ ▸ hFin) hx
    · refine .finite (isFinite_of_isZero hxZero) (isFinite_of_isZero hyZero) ?_
      rw [units, units, unitsAbs_eq_zero_iff.mpr hxZero, unitsAbs_eq_zero_iff.mpr hyZero]
      simp
  · intro h
    cases h with
    | finite hx hy hUnits =>
      exact ⟨⟨isNaN_eq_false_of_isFinite hx, isNaN_eq_false_of_isFinite hy⟩,
        eq_or_isZero_of_units_eq hUnits⟩
    | infinite _ hNum => exact ⟨⟨hNum, hNum⟩, Or.inl rfl⟩

/-- Every double but a NaN equals itself. -/
theorem equals_self_iff {x : Binary64} : Equals x x ↔ x.isNaN = false := by
  constructor
  · intro h
    cases h with
    | finite hx _ _ => exact isNaN_eq_false_of_isFinite hx
    | infinite _ hNum => exact hNum
  · intro hNum
    cases hFin : x.isFinite with
    | true => exact .finite hFin hFin rfl
    | false => exact .infinite hFin hNum

theorem Equals.symm {x y : Binary64} (h : Equals x y) : Equals y x := by
  cases h with
  | finite hx hy hUnits => exact .finite hy hx hUnits.symm
  | infinite hInf hNum => exact .infinite hInf hNum

/-- Equality of floats goes on from one to the next; NaN is equal to nothing, so it does not come
in. -/
theorem Equals.trans {x y z : Binary64} (h : Equals x y) (h' : Equals y z) : Equals x z := by
  cases h with
  | infinite _ _ => exact h'
  | finite hx hy hUnits =>
    cases h' with
    | finite _ hz hUnits' => exact .finite hx hz (hUnits.trans hUnits')
    | infinite _ _ => exact .finite hx hy hUnits

theorem same_self {x : Binary64} (h : x.isFinite = true) : x.same x = true :=
  same_iff_equals.mpr (.finite h h rfl)

-- ---------------------------------------------------------------------------
-- Rounding
-- ---------------------------------------------------------------------------

/-- The significand that rounding a fraction to its last place gives. -/
def roundedSignificand (num den : Nat) : Nat :=
  let q := lastPlace num den
  if 0 ≤ q then roundQuotient num (den * Nat.pow 2 q.toNat)
  else roundQuotient (num * Nat.pow 2 (-q).toNat) den

/-- The bits below the sign that rounding a fraction gives. -/
def roundedMagnitude (num den : Nat) : Nat :=
  if num = 0 then 0
  else min infinityBits
    ((lastPlace num den + 1074).toNat * hiddenBit + roundedSignificand num den)

/-- A fraction becomes a sign bit and a rounded magnitude. -/
theorem ofRatio_eq (negative : Bool) (num den : Nat) :
    ofRatio negative num den =
      ⟨UInt64.ofNat
        (if negative then signBit + roundedMagnitude num den else roundedMagnitude num den)⟩ :=
  rfl

/-- The sign does not reach into the exponent. -/
theorem exponentField_ofRatio (negative : Bool) (num den : Nat) :
    (ofRatio negative num den).exponentField = roundedMagnitude num den / 2 ^ 52 := by
  have hLe : roundedMagnitude num den ≤ infinityBits := by
    unfold roundedMagnitude
    split
    · exact Nat.zero_le _
    · exact Nat.min_le_left ..
  rw [ofRatio_eq, exponentField, UInt64.toNat_ofNat']
  unfold infinityBits hiddenBit at hLe
  unfold hiddenBit signBit
  split <;> omega

/-- Rounding goes up by one at most. -/
theorem roundQuotient_le (num den : Nat) : roundQuotient num den ≤ num / den + 1 := by
  unfold roundQuotient
  dsimp only
  split
  · omega
  · split
    · omega
    · split <;> omega

/-- The test by which `lastPlace` places the leading bit, said of rational numbers. -/
theorem reaches_iff {num den : Nat} (hDen : 0 < den) (width : Int) :
    (if 0 ≤ width then decide (den * Nat.pow 2 width.toNat ≤ num)
      else decide (den ≤ num * Nat.pow 2 (-width).toNat)) = true ↔
      (2 : ℚ) ^ width ≤ num / den := by
  have hDenQ : (0 : ℚ) < den := by exact_mod_cast hDen
  rw [le_div_iff₀ hDenQ]
  split
  · -- the test avoids fractions by multiplying whichever side keeps the numbers whole
    rename_i hw
    obtain ⟨n, rfl⟩ := Int.eq_ofNat_of_zero_le hw
    rw [decide_eq_true_eq, zpow_natCast, Int.toNat_natCast, mul_comm]
    exact_mod_cast Iff.rfl
  · rename_i hw
    obtain ⟨n, rfl⟩ := Int.eq_negSucc_of_lt_zero (not_le.mp hw)
    rw [decide_eq_true_eq, zpow_negSucc, inv_mul_le_iff₀ (by positivity), Int.neg_negSucc, mul_comm]
    exact_mod_cast Iff.rfl

/-- The place of the leading bit of a quotient, or the one above it. -/
def leadingPlace (num den : Nat) : Int := (Nat.log2 num : Int) - (Nat.log2 den : Int)

/-- The place of the last bit depends on the first bit of the fraction, down to the least place
there is. -/
theorem lastPlace_eq {num den : Nat} (hDen : 0 < den) :
    lastPlace num den =
      max (-1074) (if (2 : ℚ) ^ leadingPlace num den ≤ num / den
        then leadingPlace num den - 52 else leadingPlace num den - 53) := by
  have hReach := @reaches_iff num den hDen (leadingPlace num den)
  show max (-1074) (if _ = true then leadingPlace num den - 52 else _) = _
  congr 1
  exact if_congr hReach rfl rfl

/-- A fraction lies strictly below the carry out of 53 bits above its last place. -/
theorem lt_two_zpow_lastPlace {num den : Nat} (hDen : 0 < den) :
    (num : ℚ) / den < 2 ^ (lastPlace num den + 53) := by
  have hDenQ : (0 : ℚ) < den := by exact_mod_cast hDen
  by_cases hReach : (2 : ℚ) ^ leadingPlace num den ≤ num / den
  · -- the binary logarithms alone bound the fraction by one power more than the leading place
    have hNum : (num : ℚ) < 2 ^ ((Nat.log2 num : Int) + 1) := by
      exact_mod_cast Nat.lt_log2_self (n := num)
    have hLog : (2 : ℚ) ^ (Nat.log2 den : Int) ≤ den := by
      exact_mod_cast Nat.log2_self_le hDen.ne'
    rw [lastPlace_eq hDen, if_pos hReach, div_lt_iff₀ hDenQ]
    calc (num : ℚ) < 2 ^ ((Nat.log2 num : Int) + 1) := hNum
      _ = 2 ^ (leadingPlace num den + 1) * 2 ^ (Nat.log2 den : Int) := by
          rw [← zpow_add₀ two_ne_zero]
          congr 1
          unfold leadingPlace
          omega
      _ ≤ 2 ^ (max (-1074) (leadingPlace num den - 52) + 53) * den :=
          mul_le_mul (zpow_le_zpow_right₀ (by norm_num) (by omega)) hLog (by positivity)
            (by positivity)
  · rw [lastPlace_eq hDen, if_neg hReach]
    calc (num : ℚ) / den < 2 ^ leadingPlace num den := not_le.mp hReach
      _ ≤ 2 ^ (max (-1074) (leadingPlace num den - 53) + 53) :=
          zpow_le_zpow_right₀ (by norm_num) (by omega)

/-- A fraction up to `2 ^ k` has its last place 52 places below that, or at the lowest place. -/
theorem lastPlace_le {num den : Nat} {k : Int} (hNum : 0 < num) (hDen : 0 < den)
    (h : (num : ℚ) / den ≤ 2 ^ k) : lastPlace num den ≤ max (-1074) (k - 52) := by
  have hDenQ : (0 : ℚ) < den := by exact_mod_cast hDen
  by_cases hReach : (2 : ℚ) ^ leadingPlace num den ≤ num / den
  · have hLe : leadingPlace num den ≤ k :=
      (zpow_le_zpow_iff_right₀ (by norm_num)).mp (hReach.trans h)
    rw [lastPlace_eq hDen, if_pos hReach]
    omega
  · -- the leading bit stands one place below, where the fraction does reach
    have hNumLow : (2 : ℚ) ^ (Nat.log2 num : Int) ≤ num := by
      exact_mod_cast Nat.log2_self_le hNum.ne'
    have hDenHigh : (den : ℚ) < 2 ^ ((Nat.log2 den : Int) + 1) := by
      exact_mod_cast Nat.lt_log2_self (n := den)
    have hLow : (2 : ℚ) ^ (leadingPlace num den - 1) ≤ num / den := by
      rw [le_div_iff₀ hDenQ]
      calc (2 : ℚ) ^ (leadingPlace num den - 1) * den
          ≤ 2 ^ (leadingPlace num den - 1) * 2 ^ ((Nat.log2 den : Int) + 1) := by
            gcongr
        _ = 2 ^ (Nat.log2 num : Int) := by
            rw [← zpow_add₀ two_ne_zero]
            congr 1
            unfold leadingPlace
            omega
        _ ≤ num := hNumLow
    have hLe : leadingPlace num den - 1 ≤ k :=
      (zpow_le_zpow_iff_right₀ (by norm_num)).mp (hLow.trans h)
    rw [lastPlace_eq hDen, if_neg hReach]
    omega

/-- A rounded significand has 53 bits, or is the carry out of them. -/
theorem roundedSignificand_le {num den : Nat} (hDen : 0 < den) :
    roundedSignificand num den ≤ 2 ^ 53 := by
  have hDenQ : (0 : ℚ) < den := by exact_mod_cast hDen
  have hLt := @lt_two_zpow_lastPlace num den hDen
  rw [zpow_add₀ two_ne_zero, div_lt_iff₀ hDenQ] at hLt
  unfold roundedSignificand
  dsimp only
  split
  · -- units of a last place at or above one go into the denominator, smaller ones into the
    -- numerator; either way naturals bound the quotient
    rename_i hq
    obtain ⟨n, hn⟩ := Int.eq_ofNat_of_zero_le hq
    rw [hn, zpow_natCast] at hLt
    rw [hn, Int.toNat_natCast]
    refine (roundQuotient_le ..).trans (Nat.div_lt_of_lt_mul ?_)
    have hGoal : (num : ℚ) < den * 2 ^ n * 2 ^ 53 := by
      refine hLt.trans_eq ?_
      norm_cast
      ring
    exact_mod_cast hGoal
  · rename_i hq
    obtain ⟨n, hn⟩ := Int.eq_negSucc_of_lt_zero (not_le.mp hq)
    rw [hn, zpow_negSucc] at hLt
    rw [hn, Int.neg_negSucc]
    refine (roundQuotient_le ..).trans (Nat.div_lt_of_lt_mul ?_)
    have hPow : (0 : ℚ) < 2 ^ (n + 1) := by positivity
    have hGoal : (num : ℚ) * 2 ^ (n + 1) < den * 2 ^ 53 := by
      rw [mul_assoc, inv_mul_eq_div, lt_div_iff₀ hPow] at hLt
      refine hLt.trans_eq ?_
      norm_cast
      ring
    exact_mod_cast hGoal

/-- **Bounded rounding.** The double nearest to a fraction up to `2 ^ k` has at most the exponent
field of `2 ^ (k + 1)`. -/
theorem exponentField_ofRatio_le (negative : Bool) {num den k : Nat} (hDen : 0 < den)
    (h : num ≤ 2 ^ k * den) : (ofRatio negative num den).exponentField ≤ k + 1024 := by
  rw [exponentField_ofRatio]
  by_cases hNum : num = 0
  · simp [roundedMagnitude, hNum]
  · have hDenQ : (0 : ℚ) < den := by exact_mod_cast hDen
    -- the last place bounds the exponent, and a significand that is rounded up adds one at most
    have hPlace : lastPlace num den ≤ max (-1074) ((k : Int) - 52) := by
      refine lastPlace_le (Nat.pos_of_ne_zero hNum) hDen ?_
      rw [div_le_iff₀ hDenQ]
      exact_mod_cast h
    have hSig := @roundedSignificand_le num den hDen
    have hMag : roundedMagnitude num den ≤
        (lastPlace num den + 1074).toNat * 2 ^ 52 + roundedSignificand num den := by
      rw [roundedMagnitude, if_neg hNum]
      exact Nat.min_le_right ..
    omega

/-- **Rounding** leaves a fraction finite that is below the greatest power of two. -/
theorem isFinite_ofRatio (negative : Bool) {num den k : Nat} (hDen : 0 < den)
    (h : num ≤ 2 ^ k * den) (hk : k < 1023) : (ofRatio negative num den).isFinite = true := by
  have := exponentField_ofRatio_le negative hDen h
  rw [isFinite, decide_eq_true_eq]
  omega

/-- The double nearest to an integer of 64 bits, with or without a sign, is finite. -/
theorem isFinite_ofInt {n : Int} (h : n.natAbs ≤ 2 ^ 64) : (ofInt n).isFinite = true :=
  isFinite_ofRatio _ one_pos (by simpa using h) (by decide : 64 < 1023)

-- ---------------------------------------------------------------------------
-- Opposites and quotients
-- ---------------------------------------------------------------------------

/-- Negation does not reach into the exponent. -/
theorem exponentField_neg (x : Binary64) : x.neg.exponentField = x.exponentField := by
  have hMod : x.neg.bits.toNat % 2 ^ 63 = x.bits.toNat % 2 ^ 63 := by
    rw [neg, UInt64.toNat_xor, Nat.xor_mod_two_pow]
    simp
  unfold exponentField hiddenBit
  omega

theorem isFinite_neg (x : Binary64) : x.neg.isFinite = x.isFinite := by
  rw [isFinite, isFinite, exponentField_neg]

theorem ratio_snd_pos (x : Binary64) : 0 < x.ratio.2 := by
  unfold ratio
  split
  · exact one_pos
  · exact Nat.pow_pos two_pos

/-- The fraction of a finite double is its value. -/
theorem ratio_fst_mul (x : Binary64) : x.ratio.1 * 2 ^ 1074 = x.unitsAbs * x.ratio.2 := by
  have hScale : -1074 ≤ x.scale := by
    unfold scale
    split <;> omega
  unfold ratio unitsAbs
  split
  · -- a scale below zero is in the denominator, and one above it in the numerator
    rename_i hs
    have hSplit : (x.scale + 1074).toNat = x.scale.toNat + 1074 := by omega
    rw [hSplit, pow_add, mul_one, mul_assoc]
    rfl
  · rename_i hs
    have hSplit : 1074 = (x.scale + 1074).toNat + (-x.scale).toNat := by omega
    show x.significand * 2 ^ 1074 =
      x.significand * 2 ^ (x.scale + 1074).toNat * 2 ^ (-x.scale).toNat
    rw [mul_assoc, ← pow_add, ← hSplit]

/-- A double with exponent field up to `k + 1022` is below `2 ^ k`. -/
theorem ratio_fst_lt {x : Binary64} {k : Nat} (h : x.exponentField ≤ k + 1022) :
    x.ratio.1 < 2 ^ k * x.ratio.2 := by
  have hUnits : x.unitsAbs < 2 ^ k * 2 ^ 1074 := by
    rw [← pow_add]
    exact x.unitsAbs_lt.trans_le (Nat.pow_le_pow_right two_pos (by omega))
  refine Nat.lt_of_mul_lt_mul_right (a := 2 ^ 1074) ?_
  calc x.ratio.1 * 2 ^ 1074 = x.unitsAbs * x.ratio.2 := x.ratio_fst_mul
    _ < 2 ^ k * 2 ^ 1074 * x.ratio.2 := Nat.mul_lt_mul_of_pos_right hUnits x.ratio_snd_pos
    _ = 2 ^ k * x.ratio.2 * 2 ^ 1074 := Nat.mul_right_comm ..

/-- Dividing by `2 ^ j` or more takes at least `j` off the bound. -/
theorem exponentField_divMagnitude_le {x y : Binary64} {j k : Nat}
    (hx : x.exponentField ≤ k + j + 1022) (hy : 2 ^ j * y.ratio.2 ≤ y.ratio.1) :
    (x.divMagnitude y).exponentField ≤ k + 1024 := by
  have hyPos : 0 < y.ratio.1 :=
    lt_of_lt_of_le (Nat.mul_pos (by positivity) y.ratio_snd_pos) hy
  refine exponentField_ofRatio_le false (Nat.mul_pos x.ratio_snd_pos hyPos) ?_
  calc x.ratio.1 * y.ratio.2 ≤ 2 ^ (k + j) * x.ratio.2 * y.ratio.2 :=
        Nat.mul_le_mul_right _ (ratio_fst_lt hx).le
    _ = 2 ^ k * x.ratio.2 * (2 ^ j * y.ratio.2) := by ring
    _ ≤ 2 ^ k * x.ratio.2 * y.ratio.1 := Nat.mul_le_mul_left _ hy
    _ = 2 ^ k * (x.ratio.2 * y.ratio.1) := by ring

end FoodScan.Binary64
