/-!
# Reading text step by step

Readers consume a list of characters from the front. `scan` repeats a step, each on the
text the last one left, until a step is done; the bound on the number of steps is the
number of characters, so a step that always consumes something is never cut short.
-/

namespace FoodScan.Text

/-- The number of bytes of characters in UTF-8. -/
def utf8Length (cs : List Char) : Nat := cs.foldr (fun c n => c.utf8Size + n) 0

/-- The value of a hexadecimal digit of either case. -/
def hexValue? (c : Char) : Option Nat :=
  if '0' ≤ c ∧ c ≤ '9' then some (c.toNat - '0'.toNat)
  else if 'a' ≤ c ∧ c ≤ 'f' then some (c.toNat - 'a'.toNat + 10)
  else if 'A' ≤ c ∧ c ≤ 'F' then some (c.toNat - 'A'.toNat + 10)
  else none

/-- The number that digits in a base write, or nothing if one is no digit of that base. -/
def number? (base : Nat) (cs : List Char) : Option Nat :=
  cs.foldlM (fun n c => do
    let d ← hexValue? c
    if d < base then some (n * base + d) else none) 0

/-- The value of a decimal digit. -/
def digitValue (c : Char) : Nat := c.toNat - '0'.toNat

/-- Reads one given character. -/
def mark? (c : Char) : List Char → Option (List Char)
  | d :: rest => if d = c then some rest else none
  | [] => none

/-- What a step of a reader leaves: more to do in a new state, or a result. -/
inductive Progress (σ α : Type) where
  | more (state : σ) (rest : List Char)
  | done (result : α) (rest : List Char)

/-- Repeats `step`, at most `bound` times. -/
def scanUpTo {m : Type → Type} [Monad m] {σ α : Type}
    (step : σ → List Char → m (Progress σ α)) (cut : m (α × List Char)) :
    Nat → σ → List Char → m (α × List Char)
  | 0, _, _ => cut
  | bound + 1, state, cs => do
    match ← step state cs with
    | .more state rest => scanUpTo step cut bound state rest
    | .done result rest => pure (result, rest)

/-- Repeats `step` until it is done; `cut` answers for a step that consumes nothing forever. -/
def scan {m : Type → Type} [Monad m] {σ α : Type}
    (step : σ → List Char → m (Progress σ α)) (cut : m (α × List Char))
    (state : σ) (cs : List Char) : m (α × List Char) :=
  scanUpTo step cut (cs.length + 1) state cs

end FoodScan.Text
