import FoodScan.Json.Printer
import FoodScan.Proofs.Json.Canonical
import FoodScan.Proofs.Json.Grammar
import FoodScan.Proofs.Json.Quoted

/-!
# Written values read back

What `Json.render` writes is a text of the grammar, and one for the same value, so long as the
numbers in it are read back and it does not nest too deep. Integers of 64 bits always are read back:
a reader takes up their digits one after the other and never comes to one that does not fit.

* `Reader.number_chars_integer` — integers.
* `Legible.written` — values, by the depth to which they nest.

Main result: `read_render`.
-/

namespace FoodScan.Json

open Reader Text

-- ---------------------------------------------------------------------------
-- Digits
-- ---------------------------------------------------------------------------

namespace Reader

theorem digitValue_digitChar : ∀ d < 10, digitValue (Nat.digitChar d) = d := by decide

theorem digitChar_ne_zero : ∀ d < 10, 0 < d → Nat.digitChar d ≠ '0' := by decide

/-- A digit that fits is taken up. -/
theorem Digits.pushWhole_digitChar {q d : Nat} (hDigit : d < 10) (hFits : q * 10 + d < 2 ^ 64) :
    (Digits.mk q 0 false).pushWhole (Nat.digitChar d) = ⟨q * 10 + d, 0, false⟩ := by
  have hWord : fitsWord (q * 10 + d) = true := decide_eq_true hFits
  simp [Digits.pushWhole, digitValue_digitChar d hDigit, hWord]

/-- **Digits** of a number that fits 64 bits are all taken up. -/
theorem foldl_pushWhole_toDigits {n : Nat} (hFits : n < 2 ^ 64) :
    (Nat.toDigits 10 n).foldl Digits.pushWhole ⟨0, 0, false⟩ = ⟨n, 0, false⟩ := by
  induction n using Nat.strong_induction_on with
  | _ n ih =>
    rw [Nat.toDigits_eq_if (by decide)]
    split_ifs with hSmall
    · have hPush := Digits.pushWhole_digitChar (q := 0) hSmall (by omega)
      simpa using hPush
    · -- the last digit is taken up after all others, and the whole still fits
      have hLast : n % 10 < 10 := Nat.mod_lt n (by decide)
      have hSplit : n / 10 * 10 + n % 10 = n := by omega
      have hPush := Digits.pushWhole_digitChar (q := n / 10) hLast (by omega)
      rw [List.foldl_append, ih (n / 10) (by omega) (by omega), List.foldl_cons, List.foldl_nil,
        hPush, hSplit]

/-- A number other than zero is written without a zero in front. -/
theorem toDigits_ne_zero_cons {n : Nat} (hPos : 0 < n) (rest : List Char) :
    Nat.toDigits 10 n ≠ '0' :: rest := by
  induction n using Nat.strong_induction_on generalizing rest with
  | _ n ih =>
    rw [Nat.toDigits_eq_if (by decide)]
    split_ifs with hSmall
    · -- below ten the only digit is the number itself
      intro h
      exact digitChar_ne_zero n hSmall hPos (List.cons.inj h).1
    · intro h
      obtain ⟨c, digits, hDigits⟩ := List.exists_cons_of_ne_nil
        (Nat.toDigits_ne_nil (b := 10) (n := n / 10))
      rw [hDigits] at h
      obtain ⟨rfl, -⟩ := List.cons.inj h
      exact ih (n / 10) (by omega) (by omega) digits hDigits

/-- The digits of a number that fits into 64 bits are read as that number. -/
theorem unsigned_toDigits {negative : Bool} {n : Nat} (hFits : n < 2 ^ 64) :
    unsigned negative (Nat.toDigits 10 n) = finishNumber negative ⟨n, 0, false⟩ [] := by
  have hEnds : EndsDigits [] := nofun
  rcases Nat.eq_zero_or_pos n with rfl | hPos
  · exact unsigned_zero hEnds
  · have hDigits : ∀ c ∈ Nat.toDigits 10 n, c.isDigit = true :=
      fun c hc => Nat.isDigit_of_mem_toDigits (by decide) (by decide) hc
    have hRead : unsigned negative (Nat.toDigits 10 n ++ []) = _ :=
      unsigned_digits (toDigits_ne_zero_cons hPos) Nat.toDigits_ne_nil hDigits hEnds
    rwa [List.append_nil, foldl_pushWhole_toDigits hFits] at hRead

/-- **Integers** of 64 bits, signed or unsigned, are read back. -/
theorem number_chars_integer {n : Int} (h : (Number.integer n).InRange) :
    number (Number.integer n).chars = .ok (.integer n, []) := by
  obtain ⟨hLow, hHigh⟩ := h
  cases n with
  | ofNat m =>
    have hChars : (Number.integer (Int.ofNat m)).chars = Nat.toDigits 10 m := Nat.toList_repr
    have hFits : m < 2 ^ 64 := by
      have : Int.ofNat m = (m : Int) := rfl
      omega
    rw [hChars, number, unsigned_toDigits hFits]
    · rfl
    · -- no digit is a minus, so the sign is not taken for one
      intro rest hMinus
      have hDigit := Nat.isDigit_of_mem_toDigits (b := 10) (n := m) (by decide) (by decide)
        (hMinus ▸ List.mem_cons_self)
      exact absurd hDigit (by decide)
  | negSucc m =>
    have hChars : (Number.integer (Int.negSucc m)).chars = '-' :: Nat.toDigits 10 (m + 1) := by
      show ("-" ++ Nat.repr (m + 1)).toList = _
      rw [String.toList_append, Nat.toList_repr]
      rfl
    have hFits : m + 1 ≤ 2 ^ 63 := by omega
    rw [hChars, number, unsigned_toDigits (by omega)]
    show (if 1 ≤ m + 1 ∧ m + 1 ≤ 0x8000000000000000 then _ else _) = _
    rw [if_pos ⟨by omega, by omega⟩]
    rfl

end Reader

-- ---------------------------------------------------------------------------
-- Lists and objects
-- ---------------------------------------------------------------------------

theorem itemChars_eq_map (items : List Json) : itemChars items = items.map chars := by
  induction items with
  | nil => rfl
  | cons v rest ih => rw [itemChars, List.map_cons, ih]

/-- A member: its key in quotes, and its value. -/
def pairChars (e : String × Json) : List Char := quoteChars e.1 ++ ':' :: e.2.chars

/-- Members are written one by one. -/
theorem memberChars_eq_map (members : List (String × Json)) :
    memberChars members = members.map pairChars := by
  induction members with
  | nil => rfl
  | cons e rest ih =>
    rw [memberChars, List.map_cons, ih]
    rfl

/-- All pieces but the first have a comma in front. -/
theorem intercalate_comma (first : List Char) (rest : List (List Char)) :
    [','].intercalate (first :: rest) = first ++ rest.flatMap (',' :: ·) := by
  induction rest generalizing first with
  | nil => simp
  | cons second rest ih => simp [List.intercalate_cons_cons, ih]

section

variable {α : Type} {item : α → List Char → Prop} {written : α → List Char}

/-- Items behind others are written after a comma each. -/
theorem between_flatMap {vs : List α} (h : ∀ v ∈ vs, item v (written v)) :
    Between item true vs (vs.flatMap fun v => ',' :: written v) := by
  induction vs with
  | nil => exact .done blank_nil
  | cons v rest ih =>
    obtain ⟨hHead, hRest⟩ := List.forall_mem_cons.mp h
    exact .later blank_nil blank_nil hHead (ih hRest)

/-- Items are written with a comma between them. -/
theorem between_intercalate {vs : List α} (h : ∀ v ∈ vs, item v (written v)) :
    Between item false vs ([','].intercalate (vs.map written)) := by
  cases vs with
  | nil => exact .done blank_nil
  | cons v rest =>
    obtain ⟨hHead, hRest⟩ := List.forall_mem_cons.mp h
    rw [List.map_cons, intercalate_comma, List.flatMap_map]
    exact .first blank_nil hHead (between_flatMap hRest)

end

/-- A member is written without blanks. -/
theorem member_pairChars {deeper : Json → List Char → Prop} {e : String × Json}
    (h : deeper e.2 e.2.chars) : Member deeper e (pairChars e) := by
  obtain ⟨hQuoted, hText⟩ := text_quoteChars e.1 []
  have hMember := Member.intro hText blank_nil blank_nil h
  rwa [← List.cons_append, ← hQuoted, List.append_nil] at hMember

-- ---------------------------------------------------------------------------
-- Values
-- ---------------------------------------------------------------------------

/-- A value whose numbers are read back and whose lists and objects nest at most so deep. -/
inductive Legible : Nat → Json → Prop
  | null {depth : Nat} : Legible depth .null
  | bool {depth : Nat} (b : Bool) : Legible depth (.bool b)
  | number {depth : Nat} {n : Number} (h : Reader.number n.chars = .ok (n, [])) :
      Legible depth (.number n)
  | string {depth : Nat} (s : String) : Legible depth (.string s)
  | array {depth : Nat} {items : List Json} (h : ∀ v ∈ items, Legible depth v) :
      Legible (depth + 1) (.array items)
  | object {depth : Nat} {members : List (String × Json)} (h : ∀ e ∈ members, Legible depth e.2) :
      Legible (depth + 1) (.object members)

namespace Legible

variable {depth : Nat} {v : Json}

/-- What is legible at a depth is so where there is more room. -/
theorem mono {deeper : Nat} (h : Legible depth v) (hDepth : depth ≤ deeper) :
    Legible deeper v := by
  induction h generalizing deeper with
  | null => exact .null
  | bool b => exact .bool b
  | number h => exact .number h
  | string s => exact .string s
  -- a list takes one level, so what it needs inside is one less
  | array _ ih =>
    obtain ⟨deeper, rfl⟩ := Nat.exists_eq_add_one_of_ne_zero (by omega : deeper ≠ 0)
    exact .array fun v hv => ih v hv (by omega)
  | object _ ih =>
    obtain ⟨deeper, rfl⟩ := Nat.exists_eq_add_one_of_ne_zero (by omega : deeper ≠ 0)
    exact .object fun e he => ih e he (by omega)

/-- **Written.** A legible value is written as the grammar says. -/
theorem written (h : Legible depth v) : Written depth v v.chars := by
  induction h with
  | null => exact .atom .null
  | bool b =>
    cases b with
    | false => exact .atom .false
    | true => exact .atom .true
  | number h => exact .atom (.number h)
  | string s =>
    obtain ⟨hQuoted, hText⟩ := text_quoteChars s []
    rw [List.append_nil] at hQuoted
    rw [chars, hQuoted]
    exact .atom (.string hText)
  | @array depth items _ ih =>
    rw [chars, itemChars_eq_map]
    exact .inr (.array (between_intercalate ih))
  | @object depth members _ ih =>
    have hMembers : ∀ e ∈ members, Member (Written depth) e (pairChars e) :=
      fun e he => member_pairChars (ih e he)
    rw [chars, memberChars_eq_map]
    exact .inr (.object (between_intercalate hMembers))

end Legible

/-- **Read back.** A canonical value that is legible is what its text is read as. -/
theorem read_render {v : Json} (hCanonical : v.Canonical) (h : Legible depthLimit v) :
    read v.render = .ok v := by
  have hText : TextOf v.render v :=
    ⟨[], v.chars, [], by simp [render], blank_nil, h.written, blank_nil⟩
  rw [read, readRaw_eq_ok_iff.mpr hText]
  exact congrArg Except.ok hCanonical.normalize_eq

end FoodScan.Json
