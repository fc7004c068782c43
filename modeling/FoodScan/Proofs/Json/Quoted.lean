import FoodScan.Json.Printer
import FoodScan.Proofs.Json.Consuming

/-!
# Text in quotes reads back

Whatever characters a text has, it is read back from between its quotes: an escape is read as the
character that it was written for, and every other character stands for itself.

Main result: `text_quoteChars`.
-/

namespace FoodScan.Json.Reader

open Text

theorem number?_hexDigits :
    ∀ n < 32, number? 16 ['0', '0', hexDigit (n / 16), hexDigit (n % 16)] = some n := by decide

/-- A control character reads back from its number. -/
theorem unicodeEscape_hexDigits {c : Char} (h : c.toNat < 32) (cs : List Char) :
    unicodeEscape ('0' :: '0' :: hexDigit (c.toNat / 16) :: hexDigit (c.toNat % 16) :: cs) =
      .ok (c, cs) := by
  have hQuad : hexQuad ('0' :: '0' :: hexDigit (c.toNat / 16) :: hexDigit (c.toNat % 16) :: cs) =
      .ok (c.toNat, cs) := by
    rw [hexQuad, number?_hexDigits _ h]
  rw [unicodeEscape, hQuad, ok_bind]
  dsimp only
  rw [if_neg (by omega), if_neg (by omega), Char.ofNat_toNat]

/-- An escape that is read is one step of the reader of texts. -/
theorem textStep_backslash {read cs rest : List Char} {c : Char} (h : escape cs = .ok (c, rest)) :
    textStep read ('\\' :: cs) = .ok (.more (c :: read) rest) := by
  rw [textStep, h]
  rfl

/-- **One character.** -/
theorem textStep_escapeChar (read : List Char) (c : Char) (cs : List Char) :
    textStep read (escapeChar c ++ cs) = .ok (.more (c :: read) cs) := by
  rw [escapeChar]
  -- the escapes by letter
  iterate 7
    split
    · rename_i hEscaped
      subst hEscaped
      exact textStep_backslash rfl
  split
  · rename_i hControl
    exact textStep_backslash (unicodeEscape_hexDigits hControl cs)
  · show textStep read (c :: cs) = _
    unfold textStep
    split <;> simp_all

/-- **Texts.** Escaped characters are read as themselves, by induction on them. -/
theorem scans_textStep_flatMap (read cs rest : List Char) :
    Scans textStep read (cs.flatMap escapeChar ++ '"' :: rest)
      (String.ofList (read.reverse ++ cs)) rest := by
  induction cs generalizing read with
  | nil =>
    rw [List.append_nil]
    exact .done rfl
  | cons c cs ih =>
    rw [List.flatMap_cons, List.append_assoc]
    refine .more (textStep_escapeChar read c _) ?_
    have hRest := ih (c :: read)
    rwa [List.reverse_cons, List.append_assoc] at hRest

/-- **Text in quotes.** -/
theorem text_quoteChars (s : String) (rest : List Char) :
    quoteChars s ++ rest = '"' :: (s.toList.flatMap escapeChar ++ '"' :: rest) ∧
      text (s.toList.flatMap escapeChar ++ '"' :: rest) = .ok (s, rest) := by
  refine ⟨by simp [quoteChars], ?_⟩
  have hScans := scans_textStep_flatMap [] s.toList rest
  rw [List.reverse_nil, List.nil_append, String.ofList_toList] at hScans
  exact hScans.scan_eq consumes_textStep _

end FoodScan.Json.Reader
