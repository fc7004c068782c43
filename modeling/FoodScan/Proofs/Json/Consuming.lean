import FoodScan.Json.Skip
import FoodScan.Proofs.Text.Scan

/-!
# Readers consume what they read

Whatever a reader has read is not in the text that it leaves, so every loop of readers comes to its
end by itself: `consumes_textStep`, `consumes_skipTextStep` and `consumes_skipStep`.
-/

namespace FoodScan.Json.Reader

open Text

variable {cs rest : List Char} {c : Char}

-- ---------------------------------------------------------------------------
-- Blanks and words
-- ---------------------------------------------------------------------------

/-- Skipping blanks adds nothing. -/
theorem length_skipBlanks_le (cs : List Char) : (skipBlanks cs).length ≤ cs.length :=
  List.length_dropWhile_le isBlank cs

/-- What stands behind the first character that is no blank is shorter. -/
theorem length_of_skipBlanks_eq_cons (h : skipBlanks cs = c :: rest) : rest.length < cs.length := by
  have hLength := length_skipBlanks_le cs
  rw [h, List.length_cons] at hLength
  exact hLength

/-- A word is taken off the front. -/
theorem length_word {letters : List Char} (h : word letters cs = .ok rest) :
    rest.length ≤ cs.length := by
  induction letters generalizing cs with
  | nil =>
    cases h
    exact le_rfl
  | cons letter letters ih =>
    cases cs with
    | nil => cases h
    | cons c cs =>
      rw [word] at h
      split at h
      · exact le_trans (ih h) (Nat.le_succ _)
      · cases h

-- ---------------------------------------------------------------------------
-- Text
-- ---------------------------------------------------------------------------

/-- Four digits are taken off the front. -/
theorem length_hexQuad {n : Nat} (h : hexQuad cs = .ok (n, rest)) : rest.length < cs.length := by
  unfold hexQuad at h
  split at h
  · split at h
    · cases h
      simp only [List.length_cons]
      omega
    · cases h
  · split at h <;> cases h

/-- A mark of the second half of a pair takes a character. -/
theorem length_pairMark {mark : Char} (h : pairMark mark cs = .ok rest) :
    rest.length < cs.length := by
  cases cs with
  | nil => cases h
  | cons c cs =>
    rw [pairMark] at h
    split at h
    · cases h
      exact Nat.lt_succ_self _
    · cases h

/-- An escape by number takes its digits, and those of its second half if it has one. -/
theorem length_unicodeEscape (h : unicodeEscape cs = .ok (c, rest)) : rest.length < cs.length := by
  rw [unicodeEscape] at h
  obtain ⟨⟨n, cs₁⟩, hQuad, h⟩ := bind_eq_ok_iff.mp h
  have hLength := length_hexQuad hQuad
  dsimp only at h
  split at h
  · cases h
  · split at h
    · -- a pair: four readers, each of which leaves less than it was given
      obtain ⟨cs₂, hMark, h⟩ := bind_eq_ok_iff.mp h
      obtain ⟨cs₃, hMark', h⟩ := bind_eq_ok_iff.mp h
      obtain ⟨⟨low, cs₄⟩, hQuad', h⟩ := bind_eq_ok_iff.mp h
      have hLength₂ := length_pairMark hMark
      have hLength₃ := length_pairMark hMark'
      have hLength₄ := length_hexQuad hQuad'
      dsimp only at h
      split at h
      · obtain ⟨-, rfl⟩ := Prod.mk.inj (Except.ok.inj h)
        omega
      · cases h
    · obtain ⟨-, rfl⟩ := Prod.mk.inj (Except.ok.inj h)
      exact hLength

/-- An escape takes a character at least. -/
theorem length_escape (h : escape cs = .ok (c, rest)) : rest.length < cs.length := by
  unfold escape at h
  split at h
  case h_10 => exact lt_trans (length_unicodeEscape h) (Nat.lt_succ_self _)
  all_goals simp only [Except.ok.injEq, Prod.mk.injEq, reduceCtorEq] at h
  all_goals
    obtain ⟨-, rfl⟩ := h
    exact Nat.lt_succ_self _

/-- Each step of the reader of texts takes a character at least. -/
theorem consumes_textStep : Consumes textStep := by
  intro read cs p h
  unfold textStep at h
  split at h
  · cases h
  · cases h
    exact Nat.lt_succ_self _
  · obtain ⟨⟨c, rest⟩, hEscape, h⟩ := bind_eq_ok_iff.mp h
    cases h
    exact lt_trans (length_escape hEscape) (Nat.lt_succ_self _)
  · split at h
    · cases h
    · cases h
      exact Nat.lt_succ_self _

/-- A text takes its closing quote at least. -/
theorem length_text {s : String} (h : text cs = .ok (s, rest)) : rest.length < cs.length :=
  (scans_of_scan h).length_lt consumes_textStep

-- ---------------------------------------------------------------------------
-- Skipping numbers and text
-- ---------------------------------------------------------------------------

/-- A power of ten takes a digit at least. -/
theorem length_skipExponent (h : skipExponent cs = .ok rest) : rest.length < cs.length := by
  -- the sign may be missing, but a digit has to follow
  have hSign : (exponentSign cs).2.length ≤ cs.length := by
    unfold exponentSign
    split <;> simp
  rw [skipExponent] at h
  split at h
  · cases h
  · rename_i c after hAfter
    rw [hAfter] at hSign
    split at h
    · cases h
      exact lt_of_le_of_lt (List.length_dropWhile_le _ after) hSign
    · cases h

/-- Passing over a power of ten, which may be missing, adds nothing. -/
theorem length_skipPower (h : skipPower cs = .ok rest) : rest.length ≤ cs.length := by
  unfold skipPower at h
  split at h
  · exact le_trans (length_skipExponent h).le (Nat.le_succ _)
  · exact le_trans (length_skipExponent h).le (Nat.le_succ _)
  · cases h
    exact le_rfl

/-- Passing over a fraction, which may be missing, adds nothing. -/
theorem length_skipFraction (h : skipFraction cs = .ok rest) : rest.length ≤ cs.length := by
  unfold skipFraction at h
  split at h
  · split at h
    · cases h
    · split at h
      · refine le_trans (length_skipPower h) (le_trans (List.length_dropWhile_le _ _) ?_)
        simp only [List.length_cons]
        omega
      · cases h
  · exact length_skipPower h

/-- A number takes its first digit at least. -/
theorem length_skipUnsigned (h : skipUnsigned cs = .ok rest) : rest.length < cs.length := by
  unfold skipUnsigned at h
  split at h
  · cases h
  · split at h
    · cases h
    · exact Nat.lt_succ_of_le (length_skipFraction h)
  · split at h
    · refine Nat.lt_succ_of_le (le_trans (length_skipFraction h) ?_)
      exact List.length_dropWhile_le _ _
    · cases h

/-- An escape that is passed over takes a character at least. -/
theorem length_skipEscape (h : skipEscape cs = .ok rest) : rest.length < cs.length := by
  unfold skipEscape at h
  split at h
  · cases h
  · obtain ⟨⟨n, rest⟩, hQuad, h⟩ := bind_eq_ok_iff.mp h
    cases h
    exact lt_trans (length_hexQuad hQuad) (Nat.lt_succ_self _)
  · split at h
    · cases h
      exact Nat.lt_succ_self _
    · cases h

/-- Each step over a text takes a character at least. -/
theorem consumes_skipTextStep : Consumes skipTextStep := by
  intro read cs p h
  unfold skipTextStep at h
  split at h
  · cases h
  · cases h
    exact Nat.lt_succ_self _
  · obtain ⟨rest, hEscape, h⟩ := bind_eq_ok_iff.mp h
    cases h
    exact lt_trans (length_skipEscape hEscape) (Nat.lt_succ_self _)
  · split at h
    · cases h
    · cases h
      exact Nat.lt_succ_self _

/-- A text is passed over exactly if the steps over it come to its end: there are always enough of
them. -/
theorem skipText_eq_ok_iff : skipText cs = .ok rest ↔ Scans skipTextStep () cs () rest := by
  rw [skipText, bind_eq_ok_iff, ← scan_eq_ok_iff consumes_skipTextStep]
  constructor
  · rintro ⟨⟨u, rest'⟩, hScan, h⟩
    cases h
    exact hScan
  · exact fun hScan => ⟨((), rest), hScan, rfl⟩

/-- A text that is passed over takes its closing quote at least. -/
theorem length_skipText (h : skipText cs = .ok rest) : rest.length < cs.length :=
  (skipText_eq_ok_iff.mp h).length_lt consumes_skipTextStep

-- ---------------------------------------------------------------------------
-- Skipping values
-- ---------------------------------------------------------------------------

/-- Closing brackets are taken off the front. -/
theorem length_skipClosers {afterValue : Bool} {opened opened' : List Enclosure}
    (h : skipClosers afterValue opened cs = .ok (opened', rest)) : rest.length ≤ cs.length := by
  -- each closer takes one character and one level, so the induction is on the levels
  induction opened generalizing afterValue cs with
  | nil =>
    cases h
    exact le_rfl
  | cons inner outer ih =>
    rw [skipClosers] at h
    split at h
    · cases h
    · rename_i c after hAfter
      have hLength := length_of_skipBlanks_eq_cons hAfter
      split at h
      · cases h
        exact hLength.le
      · split at h
        · exact le_trans (ih h) hLength.le
        · split at h
          · cases h
          · cases h
            exact hLength

/-- A colon takes a character at least. -/
theorem length_colon (h : colon cs = .ok rest) : rest.length < cs.length := by
  rw [colon] at h
  split at h
  · cases h
  · rename_i after hAfter
    cases h
    exact length_of_skipBlanks_eq_cons hAfter
  · cases h

/-- Passing over the key of a member adds nothing. -/
theorem length_skipKey {opened : List Enclosure} (h : skipKey opened cs = .ok rest) :
    rest.length ≤ cs.length := by
  unfold skipKey at h
  split at h
  · split at h
    · cases h
    · rename_i after hAfter
      obtain ⟨rest', hText, h⟩ := bind_eq_ok_iff.mp h
      -- the quote, the text of the key and the colon each make it shorter
      have hLength := length_of_skipBlanks_eq_cons hAfter
      have hLength' := length_skipText hText
      have hLength'' := length_colon h
      omega
    · cases h
  · cases h
    exact le_rfl

/-- What is done after a scalar or an opening bracket: all that closes is closed, and the next key
is passed over. -/
def onward (afterValue : Bool) (opened : List Enclosure) (cs : List Char) :
    Except Fault (Progress (List Enclosure) Unit) := do
  match ← skipClosers afterValue opened cs with
  | ([], rest) => return .done () rest
  | (opened, rest) => return .more opened (← skipKey opened rest)

/-- One step over a value, by the first character that is no blank. -/
theorem skipStep_eq (opened : List Enclosure) (cs : List Char) :
    skipStep opened cs =
      match skipBlanks cs with
      | [] => .error (.on .endInValue [])
      | 'n' :: rest => do onward true opened (← word "ull".toList rest)
      | 't' :: rest => do onward true opened (← word "rue".toList rest)
      | 'f' :: rest => do onward true opened (← word "alse".toList rest)
      | '-' :: rest => do onward true opened (← skipUnsigned rest)
      | '"' :: rest => do onward true opened (← skipText rest)
      | '[' :: rest => onward false (.list :: opened) rest
      | '\x7b' :: rest => onward false (.object :: opened) rest
      | c :: rest =>
        if c.isDigit then do onward true opened (← skipUnsigned (c :: rest))
        else .error (.on .expectedValue (c :: rest)) := rfl

/-- Behind a value, nothing is added on the way to the next one. -/
theorem length_onward {afterValue : Bool} {opened : List Enclosure}
    {p : Progress (List Enclosure) Unit} (h : onward afterValue opened cs = .ok p) :
    (left p).length ≤ cs.length := by
  obtain ⟨⟨opened', rest⟩, hClosers, h⟩ := bind_eq_ok_iff.mp h
  have hLength := length_skipClosers hClosers
  cases opened' with
  | nil =>
    cases h
    exact hLength
  | cons inner outer =>
    obtain ⟨rest', hKey, h⟩ := bind_eq_ok_iff.mp h
    cases h
    exact le_trans (length_skipKey hKey) hLength

theorem consumes_skipStep : Consumes skipStep := by
  -- a reader that leaves no more than it was given may be followed by what closes
  have hThen : ∀ {reader : Except Fault (List Char)} {opened : List Enclosure}
      {p : Progress (List Enclosure) Unit} {bound : Nat},
      (∀ rest, reader = .ok rest → rest.length ≤ bound) →
      (reader >>= onward true opened) = .ok p → (left p).length ≤ bound := by
    intro reader opened p bound hReader h
    obtain ⟨rest, hRest, h⟩ := bind_eq_ok_iff.mp h
    exact le_trans (length_onward h) (hReader rest hRest)
  intro opened cs p h
  rw [skipStep_eq] at h
  split at h
  case h_1 => cases h
  all_goals rename_i hCs
  all_goals have hLength := length_of_skipBlanks_eq_cons hCs
  case h_5 => exact lt_of_le_of_lt (hThen (fun _ h => (length_skipUnsigned h).le) h) hLength
  case h_6 => exact lt_of_le_of_lt (hThen (fun _ h => (length_skipText h).le) h) hLength
  case h_7 | h_8 => exact lt_of_le_of_lt (length_onward h) hLength
  case h_9 =>
    split at h
    · obtain ⟨rest, hRest, h⟩ := bind_eq_ok_iff.mp h
      have hRest := length_skipUnsigned hRest
      rw [List.length_cons] at hRest
      exact lt_of_le_of_lt (length_onward h) (lt_of_le_of_lt (Nat.lt_succ_iff.mp hRest) hLength)
    · cases h
  all_goals exact lt_of_le_of_lt (hThen (fun _ h => length_word h) h) hLength

/-- A value is passed over exactly if the steps over it come to its end: there are always enough of
them. -/
theorem skipValue_eq_ok_iff : skipValue cs = .ok rest ↔ Scans skipStep [] cs () rest := by
  rw [skipValue, bind_eq_ok_iff, ← scan_eq_ok_iff consumes_skipStep]
  constructor
  · rintro ⟨⟨u, rest'⟩, hScan, h⟩
    cases h
    exact hScan
  · exact fun hScan => ⟨((), rest), hScan, rfl⟩

/-- A value that is passed over takes a character at least. -/
theorem length_skipValue (h : skipValue cs = .ok rest) : rest.length < cs.length :=
  (skipValue_eq_ok_iff.mp h).length_lt consumes_skipStep

end FoodScan.Json.Reader
