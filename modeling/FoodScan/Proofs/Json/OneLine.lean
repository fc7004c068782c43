import FoodScan.Json.Printer
import Mathlib

/-!
# A written value is one line

Control characters are escaped inside quotes and nothing else is written with any, so the text of a
value holds none (`plain_chars`) and in particular does not go over the end of a line
(`newline_not_mem_render`).
-/

namespace FoodScan

-- ---------------------------------------------------------------------------
-- Characters that are no control characters
-- ---------------------------------------------------------------------------

/-- No character is a control character below the space. -/
def Plain (cs : List Char) : Prop := ∀ c ∈ cs, 32 ≤ c.toNat

instance (cs : List Char) : Decidable (Plain cs) :=
  List.decidableBAll _ cs

namespace Plain

variable {cs ds : List Char} {c : Char}

theorem nil : Plain [] := List.forall_mem_nil _

/-- Characters that may stand in a line may be put one after the other. -/
theorem append (h : Plain cs) (h' : Plain ds) : Plain (cs ++ ds) := by
  intro c hc
  rcases List.mem_append.mp hc with hc | hc
  · exact h c hc
  · exact h' c hc

theorem cons (h : 32 ≤ c.toNat) (h' : Plain cs) : Plain (c :: cs) :=
  List.forall_mem_cons.mpr ⟨h, h'⟩

theorem mono (h : Plain cs) (hSub : ∀ c ∈ ds, c ∈ cs) : Plain ds := fun c hc => h c (hSub c hc)

/-- Pieces of a line with separators between make a line. -/
theorem intercalate {pieces : List (List Char)} (hSeparator : Plain cs)
    (h : ∀ piece ∈ pieces, Plain piece) : Plain (cs.intercalate pieces) := by
  induction pieces with
  | nil => exact nil
  | cons first rest ih =>
    obtain ⟨hFirst, hRest⟩ := List.forall_mem_cons.mp h
    cases rest with
    | nil => rwa [List.intercalate_singleton]
    | cons second rest =>
      rw [List.intercalate_cons_cons]
      exact (hFirst.append hSeparator).append (ih hRest)

theorem replicate (h : 32 ≤ c.toNat) (n : Nat) : Plain (List.replicate n c) := by
  intro d hd
  rw [List.eq_of_mem_replicate hd]
  exact h

theorem newline_not_mem (h : Plain cs) : '\n' ∉ cs := fun hc => absurd (h _ hc) (by decide)

end Plain

-- ---------------------------------------------------------------------------
-- Numbers
-- ---------------------------------------------------------------------------

theorem plain_toDigits (n : Nat) : Plain (Nat.toDigits 10 n) := by
  intro c hc
  have hDigit := Nat.isDigit_of_mem_toDigits (by decide) (by decide) hc
  rw [Char.isDigit_iff_toNat] at hDigit
  exact le_trans (by decide) hDigit.1

theorem plain_toString_nat (n : Nat) : Plain (toString n).toList := by
  show Plain (Nat.repr n).toList
  rw [Nat.toList_repr]
  exact plain_toDigits n

/-- An integer is digits, with a sign before them or not. -/
theorem plain_toString_int (n : Int) : Plain (toString n).toList := by
  cases n with
  | ofNat n => exact plain_toString_nat n
  | negSucc n =>
    have hMinus : Plain "-".toList := by decide
    show Plain ("-" ++ toString (n + 1)).toList
    rw [String.toList_append]
    exact hMinus.append (plain_toString_nat _)

/-- A decimal is laid out in digits, with points, letters and signs between them. -/
theorem DecimalFormat.plain_layoutPositive {f : DecimalFormat}
    (hSuffix : Plain f.wholeSuffix.toList) (hPlus : Plain f.exponentPlus.toList) (d : Decimal) :
    Plain (f.layoutPositive d).toList := by
  have hDigits := plain_toDigits d.digits
  rw [layoutPositive]
  dsimp only
  -- the cases are those of the layout: with all places before the point, with some, with none, and
  -- with an exponent
  split
  · split
    · simp only [String.toList_append, String.toList_ofList]
      exact (hDigits.append (.replicate (by decide) _)).append hSuffix
    · split
      · rw [String.toList_ofList]
        refine .append (hDigits.mono fun c => List.mem_of_mem_take) (.cons (by decide) ?_)
        exact hDigits.mono fun c => List.mem_of_mem_drop
      · rw [String.toList_ofList]
        exact .append (.cons (by decide) (.cons (by decide) (.replicate (by decide) _))) hDigits
  · have hE : Plain "e".toList := by decide
    simp only [String.toList_append, String.toList_ofList]
    refine .append (.append ?_ hE) ?_
    · split
      · rename_i digit hOne
        rw [← hOne]
        exact hDigits
      · rename_i digit rest hMore
        rw [hMore] at hDigits
        exact .cons (hDigits _ List.mem_cons_self)
          (.cons (by decide) (hDigits.mono fun c => List.mem_cons_of_mem _))
      · exact .nil
    · split
      · exact plain_toString_int _
      · rw [String.toList_append]
        exact hPlus.append (plain_toString_int _)

/-- So is a float, if the format adds nothing that may not stand in a line. -/
theorem DecimalFormat.plain_layout {f : DecimalFormat} (hSuffix : Plain f.wholeSuffix.toList)
    (hPlus : Plain f.exponentPlus.toList) (x : Binary64) : Plain (f.layout x).toList := by
  have hSign : Plain (if x.isNegative then "-" else "").toList := by
    split <;> decide
  have hZero : Plain "0".toList := by decide
  rw [layout]
  split
  · rw [String.toList_append, String.toList_append]
    exact (hSign.append hZero).append hSuffix
  · rw [String.toList_append]
    exact hSign.append (plain_layoutPositive hSuffix hPlus _)

namespace Json

/-- **Numbers** stay in a line. -/
theorem Number.plain_chars (n : Number) : Plain n.chars := by
  cases n with
  | integer n => exact plain_toString_int n
  | float x => exact DecimalFormat.plain_layout (by decide) (by decide) x

-- ---------------------------------------------------------------------------
-- Texts
-- ---------------------------------------------------------------------------

theorem plain_hexDigit : ∀ n < 16, 32 ≤ (hexDigit n).toNat := by decide

/-- Control characters are escaped. -/
theorem plain_escapeChar (c : Char) : Plain (escapeChar c) := by
  rw [escapeChar]
  split_ifs with h₁ h₂ h₃ h₄ h₅ h₆ h₇ hControl
  all_goals try decide
  · have hStart : Plain ['\\', 'u', '0', '0'] := by decide
    exact hStart.append
      (.cons (plain_hexDigit _ (by omega)) (.cons (plain_hexDigit _ (by omega)) .nil))
  · exact .cons (Nat.not_lt.mp hControl) .nil

/-- **Texts** stay in a line: the characters that may not stand there are escaped. -/
theorem plain_quoteChars (s : String) : Plain (quoteChars s) := by
  have hQuote : Plain ['"'] := by decide
  rw [quoteChars]
  refine (Plain.cons (by decide) fun c hc => ?_).append hQuote
  obtain ⟨d, -, hd⟩ := List.mem_flatMap.mp hc
  exact plain_escapeChar d c hd

-- ---------------------------------------------------------------------------
-- Values
-- ---------------------------------------------------------------------------

mutual

/-- **One line.** A written value has no control characters. -/
theorem plain_chars : (v : Json) → Plain v.chars
  | .null => by decide
  | .bool true => by decide
  | .bool false => by decide
  | .number n => n.plain_chars
  | .string s => plain_quoteChars s
  | .array items => by
    have hClose : Plain [']'] := by decide
    rw [chars]
    exact ((Plain.intercalate (by decide) (plain_itemChars items)).cons (by decide)).append hClose
  | .object members => by
    have hClose : Plain ['\x7d'] := by decide
    rw [chars]
    exact ((Plain.intercalate (by decide) (plain_memberChars members)).cons (by decide)).append
      hClose

theorem plain_itemChars : (items : List Json) → ∀ piece ∈ itemChars items, Plain piece
  | [] => nofun
  | v :: rest => by
    rw [itemChars]
    exact List.forall_mem_cons.mpr ⟨plain_chars v, plain_itemChars rest⟩

/-- The members of an object stay in a line. -/
theorem plain_memberChars :
    (members : List (String × Json)) → ∀ piece ∈ memberChars members, Plain piece
  | [] => nofun
  | (key, v) :: rest => by
    rw [memberChars]
    refine List.forall_mem_cons.mpr ⟨?_, plain_memberChars rest⟩
    exact (plain_quoteChars key).append ((plain_chars v).cons (by decide))

end

/-- A rendered value has no end of line in it. -/
theorem newline_not_mem_render (v : Json) : '\n' ∉ v.render.toList := by
  rw [render, String.toList_ofList]
  exact (plain_chars v).newline_not_mem

end Json

end FoodScan
