import FoodScan.Json.Reader
import FoodScan.Proofs.Json.Canonical
import FoodScan.Proofs.Scalar
import FoodScan.Proofs.Text.Scan
import FoodScan.Proofs.Traversal

/-!
# Documents that are read are canonical

Every number that the reader gives is in range: an integer because its digits are only taken up as
long as they fit 64 bits, a float because a number beyond every double is refused. So `Json.read`
gives canonical values, whatever the text.

* `Reader.number_inRange` — numbers.
* `Reader.value_inRange` — values, by the depth to which they may nest.

Main result: `read_canonical`.
-/

namespace FoodScan.Json

open Text

namespace Reader

-- ---------------------------------------------------------------------------
-- Digits
-- ---------------------------------------------------------------------------

/-- Digits that no longer fit are dropped. -/
theorem Digits.pushWhole_value_lt {d : Digits} (h : d.value < 2 ^ 64) (c : Char) :
    (d.pushWhole c).value < 2 ^ 64 := by
  unfold Digits.pushWhole fitsWord
  dsimp only
  split
  · exact h
  · rename_i hFits
    simp at hFits
    exact hFits.2

/-- So it is behind the point. -/
theorem Digits.pushFraction_value_lt {d : Digits} (h : d.value < 2 ^ 64) (c : Char) :
    (d.pushFraction c).value < 2 ^ 64 := by
  unfold Digits.pushFraction fitsWord
  dsimp only
  split
  · exact h
  · rename_i hFits
    simp at hFits
    exact hFits.2

/-- Digits taken up one after the other still fit 64 bits. -/
theorem foldl_value_lt {push : Digits → Char → Digits}
    (hPush : ∀ {d : Digits}, d.value < 2 ^ 64 → ∀ c, (push d c).value < 2 ^ 64)
    (cs : List Char) {d : Digits} (h : d.value < 2 ^ 64) : (cs.foldl push d).value < 2 ^ 64 := by
  induction cs generalizing d with
  | nil => exact h
  | cons c rest ih => exact ih (hPush h c)

-- ---------------------------------------------------------------------------
-- Floats
-- ---------------------------------------------------------------------------

/-- The powers of ten that are divided by are finite and at least one. -/
theorem powers_of_ten : ∀ down : Nat, down ≤ 308 →
    (Binary64.ofDecimal false 1 down).ratio.2 ≤ (Binary64.ofDecimal false 1 down).ratio.1 := by
  decide +kernel

/-- A double below `2 ^ 66` stays below it as it is scaled down. -/
theorem scaleDown_exponentField_le (x : Binary64) (down : Nat) (h : x.exponentField ≤ 1088) :
    (scaleDown x down).1.exponentField ≤ 1088 ∧
      ((scaleDown x down).1.isZero = false → (scaleDown x down).2 ≤ 308) := by
  induction x, down using scaleDown.induct with
  | case1 x down hMore ih =>
    -- each round divides by the greatest power of ten there is, which does not raise the exponent
    rw [scaleDown, dif_pos hMore]
    refine ih ?_
    exact @Binary64.exponentField_divMagnitude_le x _ 2 64 h (by decide +kernel)
  | case2 x down hDone =>
    rw [scaleDown, dif_neg hDone]
    refine ⟨h, fun hZero => ?_⟩
    by_contra hLarge
    exact hDone ⟨by omega, hZero⟩

/-- A float whose exponent is not the greatest is finite. -/
theorem isFinite_of_exponentField_le {x : Binary64} {e : Nat} (h : x.exponentField ≤ e)
    (he : e < 2047) : x.isFinite = true := by
  rw [Binary64.isFinite, decide_eq_true_eq]
  omega

/-- A number that is not refused is a finite float. -/
theorem Digits.isFinite_of_toFloat? {negative : Bool} {d : Digits} {x : Binary64}
    (hd : d.value < 2 ^ 64) (h : d.toFloat? negative = some x) : x.isFinite = true := by
  -- digits of 64 bits start out small, so only the powers of ten can lead out of range
  have hStart : (Binary64.ofRatio false d.value 1).exponentField ≤ 1088 :=
    @Binary64.exponentField_ofRatio_le false d.value 1 64 one_pos (by omega)
  have hSigned : ∀ {y : Binary64}, y.isFinite = true →
      (if negative then y.neg else y).isFinite = true := by
    intro y hy
    split
    · rw [Binary64.isFinite_neg, hy]
    · exact hy
  rw [Digits.toFloat?] at h
  dsimp only at h
  split at h
  · obtain ⟨hBound, hDown⟩ := scaleDown_exponentField_le _ (-d.power).toNat hStart
    split at h
    · obtain rfl := Option.some.inj h
      exact hSigned (isFinite_of_exponentField_le hBound (by omega))
    · rename_i hZero
      obtain rfl := Option.some.inj h
      refine hSigned (isFinite_of_exponentField_le ?_ (by omega : 66 + 1024 < 2047))
      refine @Binary64.exponentField_divMagnitude_le _ _ 0 66 hBound ?_
      rw [pow_zero, one_mul]
      exact powers_of_ten _ (hDown (Bool.eq_false_iff.mpr hZero))
  · split at h
    · split at h
      · obtain rfl := Option.some.inj h
        exact hSigned (isFinite_of_exponentField_le hStart (by omega))
      · cases h
    · split at h
      · rename_i hFinite
        obtain rfl := Option.some.inj h
        exact hSigned hFinite
      · cases h

-- ---------------------------------------------------------------------------
-- Numbers
-- ---------------------------------------------------------------------------

/-- A float that is read is finite. -/
theorem finishFloat_inRange {negative : Bool} {d : Digits} {rest rest' : List Char} {n : Number}
    (hd : d.value < 2 ^ 64) (h : finishFloat negative d rest = .ok (n, rest')) : n.InRange := by
  rw [finishFloat] at h
  split at h
  · rename_i x hx
    cases h
    exact Digits.isFinite_of_toFloat? hd hx
  · cases h

/-- A float with a power of ten is finite. -/
theorem exponent_inRange {negative : Bool} {d : Digits} {cs rest : List Char} {n : Number}
    (hd : d.value < 2 ^ 64) (h : exponent negative d cs = .ok (n, rest)) : n.InRange := by
  rw [exponent] at h
  dsimp only at h
  split at h
  · cases h
  · split at h
    · split at h
      · -- the digits are the same, only the power is another one
        refine finishFloat_inRange ?_ h
        exact hd
      · split at h
        · cases h
        · cases h
          cases negative <;> decide
    · cases h

/-- A float with a fraction is finite. -/
theorem fraction_inRange {negative : Bool} {d : Digits} {cs rest : List Char} {n : Number}
    (hd : d.value < 2 ^ 64) (h : fraction negative d cs = .ok (n, rest)) : n.InRange := by
  rw [fraction] at h
  dsimp only at h
  -- digits that do not fit are dropped, so the value stays within 64 bits
  have hPushed : ((cs.takeWhile Char.isDigit).foldl Digits.pushFraction
      { d with full := false }).value < 2 ^ 64 :=
    foldl_value_lt Digits.pushFraction_value_lt _ hd
  split at h
  · split at h <;> cases h
  · split at h
    · exact exponent_inRange hPushed h
    · exact exponent_inRange hPushed h
    · exact finishFloat_inRange hPushed h

/-- A number is in range whatever comes after its whole digits. -/
theorem finishNumber_inRange {negative : Bool} {d : Digits} {cs rest : List Char} {n : Number}
    (hd : d.value < 2 ^ 64) (h : finishNumber negative d cs = .ok (n, rest)) : n.InRange := by
  unfold finishNumber at h
  split at h
  · exact fraction_inRange hd h
  · exact exponent_inRange hd h
  · exact exponent_inRange hd h
  · split at h
    · exact finishFloat_inRange hd h
    · split at h
      · cases h
        exact ⟨by omega, by omega⟩
      · split at h
        · cases h
          exact ⟨by omega, by omega⟩
        · cases h
          exact @Binary64.isFinite_ofRatio true d.value 1 64 one_pos (by omega) (by omega)

/-- **Numbers** are read in range. -/
theorem unsigned_inRange {negative : Bool} {cs rest : List Char} {n : Number}
    (h : unsigned negative cs = .ok (n, rest)) : n.InRange := by
  unfold unsigned at h
  split at h
  · cases h
  · split at h
    · cases h
    · exact finishNumber_inRange (by decide) h
  · split at h
    · exact finishNumber_inRange (foldl_value_lt Digits.pushWhole_value_lt _ (by decide)) h
    · cases h

/-- Every number that is read is in range. -/
theorem number_inRange {cs rest : List Char} {n : Number} (h : number cs = .ok (n, rest)) :
    n.InRange := by
  unfold number at h
  split at h <;> exact unsigned_inRange h

-- ---------------------------------------------------------------------------
-- Lists and objects
-- ---------------------------------------------------------------------------

section

variable {α : Type} {Q : α → Prop} {item : List Char → Except Fault (α × List Char)}

/-- A step of a list adds an item with the property that items are read with. -/
theorem listStep_leaves (hItem : ∀ cs v rest, item cs = .ok (v, rest) → Q v) {read : List α}
    {cs : List Char} {p : Text.Progress (List α) (List α)} (hRead : ∀ v ∈ read, Q v)
    (h : listStep item read cs = .ok p) : Leaves (∀ v ∈ ·, Q v) (∀ v ∈ ·, Q v) p := by
  rw [listStep, bind_eq_ok_iff] at h
  obtain ⟨next, -, h⟩ := h
  cases next with
  -- the list ends, and what was read is given in order
  | inr rest =>
    cases h
    exact fun v hv => hRead v (List.mem_reverse.mp hv)
  | inl cs =>
    obtain ⟨⟨v, rest⟩, hv, h⟩ := bind_eq_ok_iff.mp h
    cases h
    exact List.forall_mem_cons.mpr ⟨hItem _ _ _ hv, hRead⟩

/-- A step of an object adds a member whose value has the property that values are read with. -/
theorem objectStep_leaves (hItem : ∀ cs v rest, item cs = .ok (v, rest) → Q v)
    {read : List (String × α)} {cs : List Char}
    {p : Text.Progress (List (String × α)) (List (String × α))} (hRead : ∀ e ∈ read, Q e.2)
    (h : objectStep item read cs = .ok p) : Leaves (∀ e ∈ ·, Q e.2) (∀ e ∈ ·, Q e.2) p := by
  rw [objectStep, bind_eq_ok_iff] at h
  obtain ⟨next, -, h⟩ := h
  cases next with
  | inr rest =>
    cases h
    exact fun e he => hRead e (List.mem_reverse.mp he)
  | inl cs =>
    obtain ⟨⟨key, rest⟩, -, h⟩ := bind_eq_ok_iff.mp h
    obtain ⟨rest', -, h⟩ := bind_eq_ok_iff.mp h
    obtain ⟨⟨v, rest''⟩, hv, h⟩ := bind_eq_ok_iff.mp h
    cases h
    exact List.forall_mem_cons.mpr ⟨hItem _ _ _ hv, hRead⟩

end

-- ---------------------------------------------------------------------------
-- Values
-- ---------------------------------------------------------------------------

/-- **One level.** A value has its numbers in range if those one level deeper have. -/
theorem value_inRange_of_deeper {depth : Nat} {cs rest : List Char} {v : Json}
    (hDeeper : ∀ below, depth = below + 1 → ∀ cs v rest, value below cs = .ok (v, rest) → v.InRange)
    (h : value depth cs = .ok (v, rest)) : v.InRange := by
  unfold value at h
  split at h
  · cases h
  · obtain ⟨_, -, h⟩ := bind_eq_ok_iff.mp h
    cases h
    exact .null
  · obtain ⟨_, -, h⟩ := bind_eq_ok_iff.mp h
    cases h
    exact .bool true
  · obtain ⟨_, -, h⟩ := bind_eq_ok_iff.mp h
    cases h
    exact .bool false
  · -- a text
    obtain ⟨⟨s, _⟩, -, h⟩ := bind_eq_ok_iff.mp h
    cases h
    exact .string s
  · -- a list
    split at h
    · cases h
    · rename_i below
      obtain ⟨⟨items, _⟩, hItems, h⟩ := bind_eq_ok_iff.mp h
      cases h
      have hAll : ∀ v ∈ items, v.InRange :=
        scan_eq_ok (P := fun read => ∀ v ∈ read, v.InRange)
          (Q := fun read => ∀ v ∈ read, v.InRange)
          (fun _ _ _ hRead => listStep_leaves (hDeeper below rfl) hRead)
          (fun _ hv => absurd hv List.not_mem_nil) hItems
      exact .array hAll
  · -- an object
    split at h
    · cases h
    · rename_i below
      obtain ⟨⟨members, _⟩, hMembers, h⟩ := bind_eq_ok_iff.mp h
      cases h
      have hAll : ∀ e ∈ members, e.2.InRange :=
        scan_eq_ok (P := fun read => ∀ e ∈ read, e.2.InRange)
          (Q := fun read => ∀ e ∈ read, e.2.InRange)
          (fun _ _ _ hRead => objectStep_leaves (hDeeper below rfl) hRead)
          (fun _ he => absurd he List.not_mem_nil) hMembers
      exact .object hAll
  · split at h
    · obtain ⟨⟨n, _⟩, hNumber, h⟩ := bind_eq_ok_iff.mp h
      cases h
      exact .number (number_inRange hNumber)
    · cases h

/-- Every number of a value that is read is in range, however deep it stands. -/
theorem value_inRange {depth : Nat} {cs rest : List Char} {v : Json}
    (h : value depth cs = .ok (v, rest)) : v.InRange := by
  induction depth generalizing cs rest v with
  | zero => exact value_inRange_of_deeper (fun _ hDepth => absurd hDepth (by omega)) h
  | succ depth ih =>
    refine value_inRange_of_deeper (fun below hDepth cs v rest hValue => ?_) h
    obtain rfl := Nat.succ.inj hDepth
    exact ih hValue

end Reader

/-- **Reading.** Every value that is read from a text is canonical. -/
theorem read_canonical {text : String} {v : Json} (h : read text = .ok v) : v.Canonical := by
  obtain ⟨raw, hRaw, rfl⟩ := map_eq_ok_iff.mp h
  refine normalize_canonical raw ?_
  rw [readRaw, readAll] at hRaw
  obtain ⟨⟨v, rest⟩, hValue, hFinish⟩ := bind_eq_ok_iff.mp (mapError_eq_ok_iff.mp hRaw)
  obtain ⟨_, -, h⟩ := bind_eq_ok_iff.mp hFinish
  cases h
  exact Reader.value_inRange hValue

end FoodScan.Json
