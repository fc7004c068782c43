import FoodScan.Proofs.Binary64
import FoodScan.Scalar

/-!
# Scalars: equality, and the way through JSON

* `same_iff_equals` — the equality that queries use is: same kind, same value, floats compared
  as numbers. It is symmetric and transitive, and every scalar but a NaN equals itself
  (`equals_self_iff`).
* `ofJson?_toJson` — every scalar but an infinity or a NaN is read back from its JSON value.
* `isNonFinite_of_ofJson?` — no scalar of a JSON value is an infinity or a NaN. A number in
  range is finite, and so is the double that an integer beyond 64 signed bits becomes.
-/

namespace FoodScan.Scalar

-- ---------------------------------------------------------------------------
-- Equality
-- ---------------------------------------------------------------------------

/-- Equal scalars: of one kind and of one value, floats compared as numbers. -/
inductive Equals : Scalar → Scalar → Prop
  | bool (b : Bool) : Equals (.bool b) (.bool b)
  | int (n : Int64) : Equals (.int n) (.int n)
  | float {x y : Binary64} (h : x.Equals y) : Equals (.float x) (.float y)
  | text (s : String) : Equals (.text s) (.text s)

/-- The program's test for equal scalars tests for `Equals`. -/
theorem same_iff_equals {s t : Scalar} : s.same t = true ↔ Equals s t := by
  constructor
  · intro h
    cases s <;> cases t <;> simp only [same, beq_iff_eq, decide_eq_true_eq, Bool.false_eq_true] at h
    case bool.bool => exact h ▸ .bool _
    case int.int => exact h ▸ .int _
    case float.float => exact .float (Binary64.same_iff_equals.mp h)
    case text.text => exact h ▸ .text _
  · intro h
    cases h with
    | bool b => simp [same]
    | int n => simp [same]
    | float hxy => exact Binary64.same_iff_equals.mpr hxy
    | text s => simp [same]

/-- A float that is no number. -/
def isNaN : Scalar → Bool
  | .float x => x.isNaN
  | _ => false

theorem Equals.symm {s t : Scalar} (h : Equals s t) : Equals t s := by
  cases h with
  | bool b => exact .bool b
  | int n => exact .int n
  | float hxy => exact .float hxy.symm
  | text s => exact .text s

theorem Equals.trans {s t u : Scalar} (h : Equals s t) (h' : Equals t u) : Equals s u := by
  cases h with
  | float hxy =>
    cases h' with
    | float hyz => exact .float (hxy.trans hyz)
  | _ => exact h'

/-- Every scalar but a NaN equals itself. -/
theorem equals_self_iff {s : Scalar} : Equals s s ↔ s.isNaN = false := by
  cases s with
  | bool b => exact iff_of_true (.bool b) rfl
  | int n => exact iff_of_true (.int n) rfl
  | text s => exact iff_of_true (.text s) rfl
  | float x =>
    constructor
    · intro h
      cases h with
      | float hx => exact Binary64.equals_self_iff.mp hx
    · exact fun hNum => .float (Binary64.equals_self_iff.mpr hNum)

/-- What equals anything is no NaN. -/
theorem Equals.isNaN_eq_false {s t : Scalar} (h : Equals s t) : s.isNaN = false :=
  equals_self_iff.mp (h.trans h.symm)

/-- Every scalar but a NaN equals itself; here, every one that JSON can write. -/
theorem same_self {s : Scalar} (h : s.isNonFinite = false) : s.same s = true := by
  cases s with
  | bool b => simp [same]
  | int n => simp [same]
  | float x =>
    rw [isNonFinite, Bool.not_eq_false'] at h
    exact Binary64.same_self h
  | text t => simp [same]

-- ---------------------------------------------------------------------------
-- JSON
-- ---------------------------------------------------------------------------

/-- A scalar is read back from its JSON value, unless JSON cannot write it. -/
theorem ofJson?_toJson (s : Scalar) :
    ofJson? s.toJson = if s.isNonFinite then none else some s := by
  cases s with
  | bool b => rfl
  | int n => simp [toJson, ofJson?, isNonFinite]
  | float x => cases hFin : x.isFinite <;> simp [toJson, ofJson?, isNonFinite, hFin]
  | text t => rfl

theorem eq_array_of_items? {v : Json} {items : List Json} (h : v.items? = some items) :
    v = .array items := by
  cases v with
  | array _ => exact congrArg Json.array (Option.some.inj h)
  | _ => cases h

/-- No list is read as a scalar. -/
theorem items?_eq_none {v : Json} {s : Scalar} (h : ofJson? v = some s) : v.items? = none := by
  cases v with
  | array items => cases h
  | _ => rfl

@[simp] theorem items?_toJson (s : Scalar) : s.toJson.items? = none := by
  cases s with
  | float x => cases hFin : x.isFinite <;> simp [toJson, hFin, Json.items?]
  | _ => rfl

/-- A scalar of a JSON value can be written as JSON again. -/
theorem isNonFinite_of_ofJson? {v : Json} {s : Scalar} (hv : v.Canonical)
    (h : ofJson? v = some s) : s.isNonFinite = false := by
  cases hv with
  | null => cases h
  | bool b => cases h; rfl
  | string t => cases h; rfl
  | array _ => cases h
  | object _ _ => cases h
  | @number n hRange =>
    cases n with
    | float x =>
      cases h
      have hFin : x.isFinite = true := hRange
      simp [isNonFinite, hFin]
    | integer n =>
      rw [ofJson?] at h
      cases hInt : int64? n with
      | some m =>
        rw [hInt] at h
        cases h
        rfl
      -- integers of JSON have 64 bits at most, which is far below the greatest float
      | none =>
        rw [hInt] at h
        cases h
        have hBound : n.natAbs ≤ 2 ^ 64 := by
          obtain ⟨hLow, hHigh⟩ := hRange
          omega
        simpa [isNonFinite] using Binary64.isFinite_ofInt hBound

end FoodScan.Scalar
