import FoodScan.Proofs.Traversal
import FoodScan.Text.Scan

/-!
# Loops over text

Readers repeat a step until it is done. What every step keeps, up to its result, holds of the
result of the loop, whichever kind of error the reader has: `scan_satisfies`. It is spelled out for
readers that give nothing when they fail (`scan_eq_some`) and for those that say why (`scan_eq_ok`).

A loop that comes to its end is a series of steps, `Scans`, and the other way about: steps that
consume something are never cut short (`scan_eq_ok_iff`).
-/

namespace FoodScan.Text

variable {σ α : Type} {P : σ → Prop} {Q : α → Prop}

/-- What a step leaves: a state of one kind, or a result of another. -/
def Leaves (P : σ → Prop) (Q : α → Prop) : Progress σ α → Prop
  | .more state _ => P state
  | .done result _ => Q result

/-- **One loop.** -/
theorem scan_satisfies {m : Type → Type} [Monad m] [LawfulMonad m]
    {step : σ → List Char → m (Progress σ α)} {cut : m (α × List Char)}
    (hStep : ∀ state cs, P state → SatisfiesM (Leaves P Q) (step state cs))
    (hCut : SatisfiesM (fun r => Q r.1) cut) {state : σ} (hState : P state) (cs : List Char) :
    SatisfiesM (fun r => Q r.1) (scan step cut state cs) := by
  rw [scan]
  generalize cs.length + 1 = bound
  induction bound generalizing state cs with
  | zero => exact hCut
  | succ bound ih =>
    refine (hStep state cs hState).bind fun p hp => ?_
    cases p with
    | more state' rest => exact ih hp rest
    | done result rest => exact .pure hp

/-- What every step keeps, a loop that ends keeps. -/
theorem scan_eq_some {step : σ → List Char → Option (Progress σ α)}
    (hStep : ∀ state cs p, P state → step state cs = some p → Leaves P Q p) {state : σ}
    {cs rest : List Char} {result : α} (hState : P state)
    (h : scan step none state cs = some (result, rest)) : Q result := by
  have hSteps : ∀ state cs, P state → SatisfiesM (Leaves P Q) (step state cs) :=
    fun state cs hState => SatisfiesM_Option_eq.mpr fun p => hStep state cs p hState
  have hCut : SatisfiesM (fun r => Q r.1) (none : Option (α × List Char)) :=
    SatisfiesM_Option_eq.mpr (by simp)
  exact SatisfiesM_Option_eq.mp (scan_satisfies hSteps hCut hState cs) _ h

/-- The same for loops that may fail. -/
theorem scan_eq_ok {ε : Type} {e : ε} {step : σ → List Char → Except ε (Progress σ α)}
    (hStep : ∀ state cs p, P state → step state cs = .ok p → Leaves P Q p) {state : σ}
    {cs rest : List Char} {result : α} (hState : P state)
    (h : scan step (.error e) state cs = .ok (result, rest)) : Q result := by
  have hSteps : ∀ state cs, P state → SatisfiesM (Leaves P Q) (step state cs) :=
    fun state cs hState => SatisfiesM_Except_eq.mpr fun p => hStep state cs p hState
  have hCut : SatisfiesM (fun r => Q r.1) (.error e : Except ε (α × List Char)) :=
    SatisfiesM_Except_eq.mpr (by simp)
  exact SatisfiesM_Except_eq.mp (scan_satisfies hSteps hCut hState cs) _ h

-- ---------------------------------------------------------------------------
-- Series of steps
-- ---------------------------------------------------------------------------

section Scans

variable {ε : Type} {step : σ → List Char → Except ε (Progress σ α)} {state : σ}
  {cs rest : List Char} {result : α}

/-- A series of steps, from a state and a text to a result and what is left of the text. -/
inductive Scans (step : σ → List Char → Except ε (Progress σ α)) :
    σ → List Char → α → List Char → Prop
  | done {state : σ} {cs : List Char} {result : α} {rest : List Char}
    (h : step state cs = .ok (.done result rest)) : Scans step state cs result rest
  | more {state state' : σ} {cs cs' : List Char} {result : α} {rest : List Char}
    (h : step state cs = .ok (.more state' cs')) (hRest : Scans step state' cs' result rest) :
    Scans step state cs result rest

/-- A step and all that come after it end in a result. -/
def Ends (step : σ → List Char → Except ε (Progress σ α)) (result : α) (rest : List Char) :
    Progress σ α → Prop
  | .more state cs => Scans step state cs result rest
  | .done result' rest' => result' = result ∧ rest' = rest

/-- The first step of a series. -/
theorem scans_iff : Scans step state cs result rest ↔
    ∃ p, step state cs = .ok p ∧ Ends step result rest p := by
  constructor
  · intro h
    cases h with
    | done h => exact ⟨_, h, rfl, rfl⟩
    | more h hRest => exact ⟨_, h, hRest⟩
  · rintro ⟨p, h, hEnds⟩
    cases p with
    | more state' cs' => exact .more h hEnds
    | done result' rest' =>
      obtain ⟨rfl, rfl⟩ := hEnds
      exact .done h

/-- What a step leaves of the text. -/
def left : Progress σ α → List Char
  | .more _ rest => rest
  | .done _ rest => rest

/-- Every step consumes something. -/
def Consumes (step : σ → List Char → Except ε (Progress σ α)) : Prop :=
  ∀ state cs p, step state cs = .ok p → (left p).length < cs.length

/-- A loop that ends within its bound ends. -/
theorem scans_of_scan {e : ε} (h : scan step (.error e) state cs = .ok (result, rest)) :
    Scans step state cs result rest := by
  rw [scan] at h
  generalize cs.length + 1 = bound at h
  induction bound generalizing state cs with
  | zero => cases h
  | succ bound ih =>
    rw [scanUpTo] at h
    obtain ⟨p, hStep, h⟩ := bind_eq_ok_iff.mp h
    cases p with
    | more state' cs' => exact .more hStep (ih h)
    | done result' rest' =>
      cases h
      exact .done hStep

/-- A loop whose steps take something takes something. -/
theorem Scans.length_lt (hStep : Consumes step) (h : Scans step state cs result rest) :
    rest.length < cs.length := by
  induction h with
  | done h => exact hStep _ _ _ h
  | more h _ ih => exact lt_trans ih (hStep _ _ _ h)

/-- A loop whose steps take something ends within its bound. -/
theorem Scans.scan_eq (hStep : Consumes step) (h : Scans step state cs result rest)
    (cut : Except ε (α × List Char)) : scan step cut state cs = .ok (result, rest) := by
  -- any bound above the length will do, since every step takes a character at least
  have hBound : ∀ bound, cs.length < bound →
      scanUpTo step cut bound state cs = .ok (result, rest) := by
    induction h with
    | done h =>
      intro bound hBound
      obtain ⟨bound, rfl⟩ := Nat.exists_eq_add_of_lt hBound
      rw [scanUpTo, h]
      rfl
    | more h _ ih =>
      intro bound hBound
      have hShorter := hStep _ _ _ h
      rw [left] at hShorter
      obtain ⟨bound, rfl⟩ := Nat.exists_eq_add_of_lt hBound
      rw [scanUpTo, h]
      exact ih _ (by omega)
  exact hBound _ (Nat.lt_succ_self _)

/-- **Loops.** The bound makes no difference where every step takes something. -/
theorem scan_eq_ok_iff (hStep : Consumes step) {e : ε} :
    scan step (.error e) state cs = .ok (result, rest) ↔ Scans step state cs result rest :=
  ⟨scans_of_scan, fun h => h.scan_eq hStep _⟩

end Scans

end FoodScan.Text
