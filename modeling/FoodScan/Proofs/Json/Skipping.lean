import FoodScan.Proofs.Json.Consuming

/-!
# What is skipped is what would be read

A value can be passed over wherever it can be read, and nothing more is passed over than would be
read. The two go about it differently: a reader comes back to a list when an item is read, skipping
keeps what is open in a stack; a surrogate pair is one character to read and two escapes to skip.

What a reader did is told by one inversion for each: `nextItem_eq_inl`, `nextKey_eq_inl`,
`objectStep_eq_more`, `readAs_of_value`. Main result: `skipValue_of_value`.
-/

namespace FoodScan.Json.Reader

open Text

variable {cs rest : List Char} {c : Char}

-- ---------------------------------------------------------------------------
-- Text
-- ---------------------------------------------------------------------------

theorem pairMark_eq_ok_iff {mark : Char} : pairMark mark cs = .ok rest ↔ cs = mark :: rest := by
  cases cs with
  | nil => simp [pairMark]
  | cons c cs =>
    rw [pairMark]
    split <;> simp_all

/-- An escape by number is passed over if its first four digits are read. -/
theorem skipEscape_u {n : Nat} (h : hexQuad cs = .ok (n, rest)) :
    skipEscape ('u' :: cs) = .ok rest := by
  rw [skipEscape, h]
  rfl

/-- What is read as an escape is passed over as one escape, or as two for a surrogate pair. -/
theorem skipEscape_of_escape (h : escape cs = .ok (c, rest)) :
    skipEscape cs = .ok rest ∨
      ∃ cs', skipEscape cs = .ok ('\\' :: cs') ∧ skipEscape cs' = .ok rest := by
  unfold escape at h
  -- of the ten escapes only the one with a code can be two, for a surrogate pair
  split at h
  case h_10 =>
    rw [unicodeEscape] at h
    obtain ⟨⟨n, cs₁⟩, hQuad, h⟩ := bind_eq_ok_iff.mp h
    dsimp only at h
    split at h
    · cases h
    · split at h
      · obtain ⟨cs₂, hMark, hTail⟩ := bind_eq_ok_iff.mp h
        obtain ⟨cs₃, hMark', hLow⟩ := bind_eq_ok_iff.mp hTail
        obtain ⟨⟨low, cs₄⟩, hQuad', hPair⟩ := bind_eq_ok_iff.mp hLow
        rw [pairMark_eq_ok_iff.mp hMark, pairMark_eq_ok_iff.mp hMark'] at hQuad
        dsimp only at hPair
        split at hPair
        · obtain ⟨-, rfl⟩ := Prod.mk.inj (Except.ok.inj hPair)
          exact .inr ⟨_, skipEscape_u hQuad, skipEscape_u hQuad'⟩
        · cases hPair
      · obtain ⟨-, rfl⟩ := Prod.mk.inj (Except.ok.inj h)
        exact .inl (skipEscape_u hQuad)
  all_goals simp only [Except.ok.injEq, Prod.mk.injEq, reduceCtorEq] at h
  all_goals
    obtain ⟨-, rfl⟩ := h
    exact .inl rfl

/-- An escape is one step over a text. -/
theorem skipTextStep_escape (h : skipEscape cs = .ok rest) :
    skipTextStep () ('\\' :: cs) = .ok (.more () rest) := by
  rw [skipTextStep, h]
  rfl

/-- **Texts.** Where the reader of texts comes to the end, so do the steps over it. -/
theorem scans_skipTextStep {read : List Char} {s : String} (h : Scans textStep read cs s rest) :
    Scans skipTextStep () cs () rest := by
  induction h with
  | done h =>
    unfold textStep at h
    split at h
    · cases h
    · cases h
      exact .done rfl
    · obtain ⟨_, -, h⟩ := bind_eq_ok_iff.mp h
      cases h
    · split at h <;> cases h
  | more h _ ih =>
    unfold textStep at h
    split at h
    · cases h
    · cases h
    · -- a pair is read in one step and passed over in two
      obtain ⟨⟨c, rest⟩, hEscape, h⟩ := bind_eq_ok_iff.mp h
      cases h
      rcases skipEscape_of_escape hEscape with hSkip | ⟨cs', hFirst, hSecond⟩
      · exact .more (skipTextStep_escape hSkip) ih
      · exact .more (skipTextStep_escape hFirst) (.more (skipTextStep_escape hSecond) ih)
    · split at h
      · cases h
      · cases h
        refine .more ?_ ih
        unfold skipTextStep
        split <;> simp_all

/-- A text that can be read can be passed over, to the same rest. -/
theorem skipText_of_text {s : String} (h : text cs = .ok (s, rest)) : skipText cs = .ok rest :=
  skipText_eq_ok_iff.mpr (scans_skipTextStep (scans_of_scan h))

-- ---------------------------------------------------------------------------
-- Numbers
-- ---------------------------------------------------------------------------

/-- The digits of a power of ten are read up to a number that is too large; all of them are passed
over. -/
theorem dropWhile_exponentDigits (n : Nat) (cs : List Char) :
    ((exponentDigits n cs).1.isSome = true → (exponentDigits n cs).2 = cs.dropWhile Char.isDigit) ∧
      (exponentDigits n cs).2.dropWhile Char.isDigit = cs.dropWhile Char.isDigit := by
  induction cs generalizing n with
  | nil => exact ⟨fun _ => rfl, rfl⟩
  | cons c rest ih =>
    rw [exponentDigits]
    -- counting may stop early, but never at anything other than a digit
    by_cases hDigit : c.isDigit = true
    · rw [if_pos hDigit, List.dropWhile_cons_of_pos hDigit]
      dsimp only
      split
      · exact ⟨by simp, rfl⟩
      · exact ih _
    · rw [if_neg hDigit, List.dropWhile_cons_of_neg hDigit]
      exact ⟨fun _ => rfl, rfl⟩

/-- A float is made from what was read before, and nothing more is taken. -/
theorem rest_of_finishFloat {negative : Bool} {d : Digits} {n : Number}
    (h : finishFloat negative d cs = .ok (n, rest)) : cs = rest := by
  rw [finishFloat] at h
  split at h
  · exact (Prod.mk.inj (Except.ok.inj h)).2
  · cases h

/-- A power of ten that can be read can be passed over, to the same rest. -/
theorem skipExponent_of_exponent {negative : Bool} {d : Digits} {n : Number}
    (h : exponent negative d cs = .ok (n, rest)) : skipExponent cs = .ok rest := by
  rw [exponent] at h
  rw [skipExponent]
  cases hSign : exponentSign cs with
  | mk down after =>
    rw [hSign] at h
    cases after with
    | nil => cases h
    | cons c after =>
      dsimp only at h ⊢
      -- digits past the limit are counted no further when read, but passed over all the same
      obtain ⟨hAll, hMost⟩ := dropWhile_exponentDigits (digitValue c) after
      split at h
      · rename_i hDigit
        rw [if_pos hDigit]
        split at h
        · rename_i m rest' hDigits
          rw [hDigits] at hAll
          rw [← hAll rfl, rest_of_finishFloat h]
        · rename_i rest' hDigits
          rw [hDigits] at hMost
          split at h
          · cases h
          · obtain ⟨-, rfl⟩ := Prod.mk.inj (Except.ok.inj h)
            rw [← hMost]
      · cases h

/-- Where no power of ten starts, none is passed over. -/
theorem skipPower_of_no_power (hSmall : ∀ rest, cs = 'e' :: rest → False)
    (hCapital : ∀ rest, cs = 'E' :: rest → False) : skipPower cs = .ok cs := by
  unfold skipPower
  split
  · exact (hSmall _ rfl).elim
  · exact (hCapital _ rfl).elim
  · rfl

/-- Where there is no point, no fraction is passed over. -/
theorem skipFraction_of_no_point (hPoint : ∀ rest, cs = '.' :: rest → False) :
    skipFraction cs = skipPower cs := by
  unfold skipFraction
  split
  · exact (hPoint _ rfl).elim
  · rfl

theorem skipPower_of_exponent {negative : Bool} {d : Digits} {n : Number} (hE : c = 'e' ∨ c = 'E')
    (h : exponent negative d cs = .ok (n, rest)) : skipPower (c :: cs) = .ok rest := by
  rcases hE with rfl | rfl <;> exact skipExponent_of_exponent h

/-- A fraction, after its point. -/
theorem skipFraction_of_fraction {negative : Bool} {d : Digits} {n : Number}
    (h : fraction negative d cs = .ok (n, rest)) : skipFraction ('.' :: cs) = .ok rest := by
  rw [fraction] at h
  dsimp only at h
  split at h
  · split at h <;> cases h
  · rename_i hDigits
    cases cs with
    | nil => exact absurd rfl hDigits
    | cons c cs =>
      -- a fraction has a digit at least, which is what passing over it asks for
      have hDigit : c.isDigit = true := by
        by_contra hNot
        rw [List.takeWhile_cons_of_neg hNot] at hDigits
        exact hDigits rfl
      rw [List.dropWhile_cons_of_pos hDigit] at h
      rw [skipFraction, if_pos hDigit]
      split at h
      · rename_i hRest
        rw [hRest]
        exact skipPower_of_exponent (.inl rfl) h
      · rename_i hRest
        rw [hRest]
        exact skipPower_of_exponent (.inr rfl) h
      · rename_i hSmall hCapital
        rw [skipPower_of_no_power hSmall hCapital, rest_of_finishFloat h]

/-- What comes after the whole digits of a number can be passed over if it can be read. -/
theorem skipFraction_of_finishNumber {negative : Bool} {d : Digits} {n : Number}
    (h : finishNumber negative d cs = .ok (n, rest)) : skipFraction cs = .ok rest := by
  unfold finishNumber at h
  split at h
  · exact skipFraction_of_fraction h
  · rw [skipFraction_of_no_point]
    · exact skipPower_of_exponent (.inl rfl) h
    · simp
  · rw [skipFraction_of_no_point]
    · exact skipPower_of_exponent (.inr rfl) h
    · simp
  · -- neither point nor power: what a plain number becomes does not matter here
    rename_i hPoint hSmall hCapital
    rw [skipFraction_of_no_point hPoint, skipPower_of_no_power hSmall hCapital]
    split at h
    · rw [rest_of_finishFloat h]
    · split at h
      · cases h; rfl
      · split at h
        · cases h; rfl
        · cases h; rfl

/-- **Numbers.** One that can be read can be passed over, to the same rest. -/
theorem skipUnsigned_of_unsigned {negative : Bool} {n : Number}
    (h : unsigned negative cs = .ok (n, rest)) : skipUnsigned cs = .ok rest := by
  unfold unsigned at h
  split at h
  · cases h
  · rename_i cs
    rw [skipUnsigned]
    split at h
    · cases h
    · rename_i hDigit
      rw [if_neg hDigit]
      exact skipFraction_of_finishNumber h
  · -- without a zero in front there may be any number of digits
    rename_i c cs hZero
    split at h
    · rename_i hDigit
      dsimp only at h
      rw [List.dropWhile_cons_of_pos hDigit] at h
      rw [skipUnsigned, if_pos hDigit]
      · exact skipFraction_of_finishNumber h
      · exact hZero
    · cases h

-- ---------------------------------------------------------------------------
-- What comes after a value
-- ---------------------------------------------------------------------------

theorem skipBlanks_skipBlanks (cs : List Char) : skipBlanks (skipBlanks cs) = skipBlanks cs :=
  List.dropWhile_idempotent isBlank cs

variable {opened : List Enclosure} {final : List Char}

/-- What closes is closed, the next key is passed over, and skipping goes on to its end. -/
def GoesOn (afterValue : Bool) (opened : List Enclosure) (cs final : List Char) : Prop :=
  ∃ p, onward afterValue opened cs = .ok p ∧ Ends skipStep () final p

/-- A step that passes over a whole value may be followed by what the enclosing ones still demand.
-/
theorem scans_of_skipStep_eq {afterValue : Bool} {opened' : List Enclosure}
    (h : skipStep opened cs = onward afterValue opened' rest)
    (hRest : GoesOn afterValue opened' rest final) : Scans skipStep opened cs () final := by
  obtain ⟨p, hOnward, hEnds⟩ := hRest
  exact scans_iff.mpr ⟨p, h.trans hOnward, hEnds⟩

/-- Blanks before a value make no difference to the steps over it. -/
theorem scans_of_skipBlanks (h : Scans skipStep opened (skipBlanks cs) () final) :
    Scans skipStep opened cs () final := by
  have hSame : skipStep opened (skipBlanks cs) = skipStep opened cs := by
    rw [skipStep_eq, skipStep_eq, skipBlanks_skipBlanks]
  cases h with
  | done h => exact .done (hSame ▸ h)
  | more h hRest => exact .more (hSame ▸ h) hRest

/-- With nothing enclosing it, a value is all there is to pass over. -/
theorem goesOn_nil (rest : List Char) : GoesOn true [] rest rest :=
  ⟨.done () rest, rfl, rfl, rfl⟩

/-- After what is closed, it goes on as after a value. -/
theorem goesOn_closer {afterValue : Bool} {inner : Enclosure}
    (hCs : skipBlanks cs = inner.closer :: rest) (hRest : GoesOn true opened rest final) :
    GoesOn afterValue (inner :: opened) cs final := by
  obtain ⟨p, hOnward, hEnds⟩ := hRest
  refine ⟨p, ?_, hEnds⟩
  have hComma : (afterValue && inner.closer == ',') = false := by
    cases inner <;> cases afterValue <;> rfl
  rw [onward, skipClosers, hCs]
  dsimp only
  rw [hComma, if_neg Bool.false_ne_true, if_pos rfl]
  exact hOnward

/-- At the first item nothing is passed over. -/
theorem goesOn_first {inner : Enclosure} (hCs : skipBlanks cs = c :: rest)
    (hOpen : c ≠ inner.closer) {cs' : List Char}
    (hKey : skipKey (inner :: opened) (c :: rest) = .ok cs')
    (hRest : Scans skipStep (inner :: opened) cs' () final) :
    GoesOn false (inner :: opened) cs final := by
  refine ⟨.more (inner :: opened) cs', ?_, hRest⟩
  rw [onward, skipClosers, hCs]
  dsimp only
  rw [Bool.false_and, if_neg Bool.false_ne_true, if_neg hOpen, if_neg Bool.false_ne_true, ok_bind]
  dsimp only
  rw [hKey]
  rfl

/-- At any other item the comma is. -/
theorem goesOn_comma {inner : Enclosure} (hCs : skipBlanks cs = ',' :: rest) {cs' : List Char}
    (hKey : skipKey (inner :: opened) rest = .ok cs')
    (hRest : Scans skipStep (inner :: opened) cs' () final) :
    GoesOn true (inner :: opened) cs final := by
  refine ⟨.more (inner :: opened) cs', ?_, hRest⟩
  rw [onward, skipClosers, hCs]
  dsimp only
  rw [if_pos (by rfl), ok_bind]
  dsimp only
  rw [hKey]
  rfl

-- ---------------------------------------------------------------------------
-- Lists and objects
-- ---------------------------------------------------------------------------

/-- A list ends at its bracket. -/
theorem nextItem_eq_inr {first : Bool} (h : nextItem first cs = .ok (.inr rest)) :
    skipBlanks cs = ']' :: rest := by
  unfold nextItem at h
  split at h
  · cases h
  · cases h
    assumption
  · split at h
    · cases h
    · split at h
      · split at h <;> cases h
      · cases h

/-- An item comes first, or after a comma. -/
theorem nextItem_eq_inl {first : Bool} {cs' : List Char} (h : nextItem first cs = .ok (.inl cs')) :
    (first = true ∧ ∃ c rest, skipBlanks cs = c :: rest ∧ c ≠ ']' ∧ cs' = c :: rest) ∨
      (first = false ∧ ∃ rest, skipBlanks cs = ',' :: rest ∧ skipBlanks rest = cs') := by
  unfold nextItem at h
  split at h
  · cases h
  · cases h
  · -- before the first item there is no comma, and before any other there is one
    rename_i c rest hOpen hCs
    split at h
    · rename_i hFirst
      cases h
      exact .inl ⟨hFirst, c, rest, hCs, hOpen, rfl⟩
    · rename_i hFirst
      split at h
      · rename_i hComma
        subst hComma
        split at h
        · cases h
        · cases h
        · cases h
          exact .inr ⟨Bool.eq_false_iff.mpr hFirst, rest, ‹_›, rfl⟩
      · cases h

/-- An object ends at its brace. -/
theorem nextKey_eq_inr {first : Bool} (h : nextKey first cs = .ok (.inr rest)) :
    skipBlanks cs = '\x7d' :: rest := by
  unfold nextKey at h
  split at h
  · cases h
  · cases h
    assumption
  · split at h
    · split at h <;> cases h
    · split at h
      · split at h <;> cases h
      · cases h

/-- A key comes first, or after a comma. -/
theorem nextKey_eq_inl {first : Bool} {cs' : List Char} (h : nextKey first cs = .ok (.inl cs')) :
    (first = true ∧ skipBlanks cs = '"' :: cs') ∨
      (first = false ∧ ∃ rest, skipBlanks cs = ',' :: rest ∧ skipBlanks rest = '"' :: cs') := by
  unfold nextKey at h
  split at h
  · cases h
  · cases h
  · -- as with items, but what comes has to be a quote
    rename_i c rest hClose hCs
    split at h
    · rename_i hFirst
      split at h
      · rename_i hQuote
        cases h
        exact .inl ⟨hFirst, hQuote ▸ hCs⟩
      · cases h
    · rename_i hFirst
      split at h
      · rename_i hComma
        subst hComma
        split at h
        · cases h
        · cases h
          exact .inr ⟨Bool.eq_false_iff.mpr hFirst, rest, hCs, ‹_›⟩
        · cases h
        · cases h
      · cases h

variable {α : Type} {item : List Char → Except Fault (α × List Char)}

/-- The last step of a list finds its bracket, and gives the items in the order in which they came.
-/
theorem listStep_eq_done {read items : List α}
    (h : listStep item read cs = .ok (.done items rest)) :
    nextItem read.isEmpty cs = .ok (.inr rest) ∧ items = read.reverse := by
  obtain ⟨next, hNext, h⟩ := bind_eq_ok_iff.mp h
  cases next with
  | inr after =>
    cases h
    exact ⟨hNext, rfl⟩
  | inl after =>
    obtain ⟨_, -, h⟩ := bind_eq_ok_iff.mp h
    cases h

/-- Any other step reads one item. -/
theorem listStep_eq_more {read read' : List α}
    (h : listStep item read cs = .ok (.more read' rest)) :
    ∃ after v, nextItem read.isEmpty cs = .ok (.inl after) ∧ item after = .ok (v, rest) ∧
      read' = v :: read := by
  obtain ⟨next, hNext, h⟩ := bind_eq_ok_iff.mp h
  cases next with
  | inr after => cases h
  | inl after =>
    obtain ⟨⟨v, after'⟩, hValue, h⟩ := bind_eq_ok_iff.mp h
    cases h
    exact ⟨after, v, hNext, hValue, rfl⟩

/-- The last step of an object finds its brace, and gives the members in the order in which they
came. -/
theorem objectStep_eq_done {read members : List (String × α)}
    (h : objectStep item read cs = .ok (.done members rest)) :
    nextKey read.isEmpty cs = .ok (.inr rest) ∧ members = read.reverse := by
  obtain ⟨next, hNext, h⟩ := bind_eq_ok_iff.mp h
  cases next with
  | inr after =>
    cases h
    exact ⟨hNext, rfl⟩
  | inl after =>
    obtain ⟨_, -, h⟩ := bind_eq_ok_iff.mp h
    obtain ⟨_, -, h⟩ := bind_eq_ok_iff.mp h
    obtain ⟨_, -, h⟩ := bind_eq_ok_iff.mp h
    cases h

/-- Any other step reads one member: a key, a colon and a value. -/
theorem objectStep_eq_more {read read' : List (String × α)}
    (h : objectStep item read cs = .ok (.more read' rest)) :
    ∃ after key after₁ after₂ v, nextKey read.isEmpty cs = .ok (.inl after) ∧
      text after = .ok (key, after₁) ∧ colon after₁ = .ok after₂ ∧ item after₂ = .ok (v, rest) ∧
      read' = (key, v) :: read := by
  obtain ⟨next, hNext, h⟩ := bind_eq_ok_iff.mp h
  cases next with
  | inr after => cases h
  | inl after =>
    obtain ⟨⟨key, after₁⟩, hText, h⟩ := bind_eq_ok_iff.mp h
    obtain ⟨after₂, hColon, h⟩ := bind_eq_ok_iff.mp h
    obtain ⟨⟨v, after₃⟩, hValue, h⟩ := bind_eq_ok_iff.mp h
    cases h
    exact ⟨after, key, after₁, after₂, v, hNext, hText, hColon, hValue, rfl⟩

section Enclosures

variable (hItem : ∀ {cs v rest opened final}, item cs = .ok (v, rest) →
  GoesOn true opened rest final → Scans skipStep opened cs () final)
include hItem

theorem goesOn_of_listStep {read items : List α} (h : Scans (listStep item) read cs items rest)
    (hRest : GoesOn true opened rest final) :
    GoesOn (!read.isEmpty) (.list :: opened) cs final := by
  induction h with
  | done h => exact goesOn_closer (nextItem_eq_inr (listStep_eq_done h).1) hRest
  | more h _ ih =>
    obtain ⟨after, v, hNext, hValue, rfl⟩ := listStep_eq_more h
    -- behind the item comes what the induction speaks of
    have hScans := hItem hValue (ih hRest)
    rcases nextItem_eq_inl hNext with
      ⟨hFirst, c, rest', hCs, hOpen, rfl⟩ | ⟨hLater, rest', hCs, rfl⟩
    · rw [hFirst]
      exact goesOn_first hCs hOpen rfl hScans
    · rw [hLater]
      exact goesOn_comma hCs rfl (scans_of_skipBlanks hScans)

theorem goesOn_of_objectStep {read members : List (String × α)}
    (h : Scans (objectStep item) read cs members rest) (hRest : GoesOn true opened rest final) :
    GoesOn (!read.isEmpty) (.object :: opened) cs final := by
  induction h with
  | done h => exact goesOn_closer (nextKey_eq_inr (objectStep_eq_done h).1) hRest
  | more h _ ih =>
    obtain ⟨after, key, after₁, after₂, v, hNext, hText, hColon, hValue, rfl⟩ :=
      objectStep_eq_more h
    have hScans := hItem hValue (ih hRest)
    -- passing over a key takes its text and the colon, as reading it did
    have hKey : ∀ cs', skipBlanks cs' = '"' :: after →
        skipKey (.object :: opened) cs' = .ok after₂ := by
      intro cs' hCs'
      rw [skipKey, hCs']
      show skipText after >>= colon = _
      rw [skipText_of_text hText]
      exact hColon
    rcases nextKey_eq_inl hNext with ⟨hFirst, hCs⟩ | ⟨hLater, rest', hCs, hRest'⟩
    · rw [hFirst]
      refine goesOn_first hCs (by decide) (hKey _ ?_) hScans
      rw [← hCs, skipBlanks_skipBlanks]
    · rw [hLater]
      exact goesOn_comma hCs (hKey _ hRest') hScans

end Enclosures

-- ---------------------------------------------------------------------------
-- Values
-- ---------------------------------------------------------------------------

/-- How a value is read, told by its first character. -/
inductive ReadAs (depth : Nat) (rest : List Char) : List Char → Json → Prop
  | null {cs : List Char} (h : word "ull".toList cs = .ok rest) :
    ReadAs depth rest ('n' :: cs) .null
  | true {cs : List Char} (h : word "rue".toList cs = .ok rest) :
    ReadAs depth rest ('t' :: cs) (.bool true)
  | false {cs : List Char} (h : word "alse".toList cs = .ok rest) :
    ReadAs depth rest ('f' :: cs) (.bool false)
  | string {cs : List Char} {s : String} (h : text cs = .ok (s, rest)) :
    ReadAs depth rest ('"' :: cs) (.string s)
  | array {cs : List Char} {below : Nat} {items : List Json} (hDepth : depth = below + 1)
    (h : Scans (listStep (value below)) [] cs items rest) :
    ReadAs depth rest ('[' :: cs) (.array items)
  | object {cs : List Char} {below : Nat} {members : List (String × Json)}
    (hDepth : depth = below + 1) (h : Scans (objectStep (value below)) [] cs members rest) :
    ReadAs depth rest ('\x7b' :: cs) (.object members)
  | number {c : Char} {cs : List Char} {n : Number} (hFirst : c = '-' ∨ c.isDigit = true)
    (h : number (c :: cs) = .ok (n, rest)) : ReadAs depth rest (c :: cs) (.number n)

/-- What the reader takes a value for is decided by the first character that is no blank. -/
theorem readAs_of_value {depth : Nat} {v : Json} (h : value depth cs = .ok (v, rest)) :
    ReadAs depth rest (skipBlanks cs) v := by
  unfold value at h
  -- one case for each first character, in the order in which the reader asks for them
  split at h
  case h_1 => cases h
  all_goals
    rename_i hCs
    rw [hCs]
  case h_2 =>
    obtain ⟨_, hWord, h⟩ := bind_eq_ok_iff.mp h
    cases h
    exact .null hWord
  case h_3 =>
    obtain ⟨_, hWord, h⟩ := bind_eq_ok_iff.mp h
    cases h
    exact .true hWord
  case h_4 =>
    obtain ⟨_, hWord, h⟩ := bind_eq_ok_iff.mp h
    cases h
    exact .false hWord
  case h_5 =>
    obtain ⟨_, hText, h⟩ := bind_eq_ok_iff.mp h
    cases h
    exact .string hText
  case h_6 =>
    split at h
    · cases h
    · obtain ⟨_, hItems, h⟩ := bind_eq_ok_iff.mp h
      cases h
      exact .array rfl (scans_of_scan hItems)
  case h_7 =>
    split at h
    · cases h
    · obtain ⟨_, hMembers, h⟩ := bind_eq_ok_iff.mp h
      cases h
      exact .object rfl (scans_of_scan hMembers)
  case h_8 =>
    split at h
    · rename_i hFirst
      obtain ⟨_, hNumber, h⟩ := bind_eq_ok_iff.mp h
      cases h
      exact .number (by simpa using hFirst) hNumber
    · cases h

/-- **One level.** A value is passed over if those one level deeper are. -/
theorem scans_skipStep_of_deeper {depth : Nat} {v : Json}
    (hDeeper : ∀ below, depth = below + 1 → ∀ {cs v rest opened final},
      value below cs = .ok (v, rest) → GoesOn true opened rest final →
      Scans skipStep opened cs () final)
    (h : value depth cs = .ok (v, rest)) (hRest : GoesOn true opened rest final) :
    Scans skipStep opened cs () final := by
  -- a scalar that is passed over by itself is followed by what comes after it
  have hScalar : ∀ {reader : Except Fault (List Char)},
      skipStep opened cs = reader >>= onward true opened → reader = .ok rest →
      Scans skipStep opened cs () final := by
    intro reader hStep hReader
    rw [hReader, ok_bind] at hStep
    exact scans_of_skipStep_eq hStep hRest
  have hStep := skipStep_eq opened cs
  have hRead := readAs_of_value h
  generalize skipBlanks cs = start at hStep hRead
  cases hRead with
  | null hWord | true hWord | false hWord => exact hScalar hStep hWord
  | string hText => exact hScalar hStep (skipText_of_text hText)
  | array hDepth hItems =>
    exact scans_of_skipStep_eq hStep (goesOn_of_listStep (hDeeper _ hDepth) hItems hRest)
  | object hDepth hMembers =>
    exact scans_of_skipStep_eq hStep (goesOn_of_objectStep (hDeeper _ hDepth) hMembers hRest)
  | @number c cs' n hFirst hNumber =>
    by_cases hMinus : c = '-'
    · subst hMinus
      exact hScalar hStep (skipUnsigned_of_unsigned hNumber)
    · have hDigit : c.isDigit = true := hFirst.resolve_left hMinus
      rw [number] at hNumber
      · refine hScalar ?_ (skipUnsigned_of_unsigned hNumber)
        rw [hStep]
        split <;> simp_all
      · exact fun rest h => hMinus (List.cons.inj h).1

/-- **Values.** One that can be read is passed over by steps, to the same rest. -/
theorem scans_skipStep_of_value {depth : Nat} {v : Json} (h : value depth cs = .ok (v, rest))
    (hRest : GoesOn true opened rest final) : Scans skipStep opened cs () final := by
  induction depth generalizing cs v rest opened final with
  | zero => exact scans_skipStep_of_deeper (fun _ hDepth => absurd hDepth (by omega)) h hRest
  | succ depth ih =>
    refine scans_skipStep_of_deeper (fun below hDepth => ?_) h hRest
    obtain rfl := Nat.succ.inj hDepth
    exact ih

/-- **Skipping.** What can be read can be passed over, with the same rest. -/
theorem skipValue_of_value {depth : Nat} {v : Json} (h : value depth cs = .ok (v, rest)) :
    skipValue cs = .ok rest :=
  skipValue_eq_ok_iff.mpr (scans_skipStep_of_value h (goesOn_nil rest))

-- ---------------------------------------------------------------------------
-- Reading consumes too
-- ---------------------------------------------------------------------------

/-- A value takes a character at least. -/
theorem length_value {depth : Nat} {v : Json} (h : value depth cs = .ok (v, rest)) :
    rest.length < cs.length :=
  length_skipValue (skipValue_of_value h)

/-- An item is looked for without taking it. -/
theorem length_nextItem {first : Bool} {after : List Char}
    (h : nextItem first cs = .ok (.inl after)) : after.length ≤ cs.length := by
  rcases nextItem_eq_inl h with ⟨-, c, rest, hCs, -, rfl⟩ | ⟨-, rest, hCs, rfl⟩
  · rw [← hCs]
    exact length_skipBlanks_le cs
  · exact le_trans (length_skipBlanks_le rest) (length_of_skipBlanks_eq_cons hCs).le

/-- A key is looked for without taking more than its opening quote. -/
theorem length_nextKey {first : Bool} {after : List Char}
    (h : nextKey first cs = .ok (.inl after)) : after.length < cs.length := by
  rcases nextKey_eq_inl h with ⟨-, hCs⟩ | ⟨-, rest, hCs, hRest⟩
  · exact length_of_skipBlanks_eq_cons hCs
  · exact lt_trans (length_of_skipBlanks_eq_cons hRest) (length_of_skipBlanks_eq_cons hCs)

/-- A list consumes something with every item that does. -/
theorem consumes_listStep_of {α : Type} {item : List Char → Except Fault (α × List Char)}
    (hItem : ∀ {cs v rest}, item cs = .ok (v, rest) → rest.length < cs.length) :
    Consumes (listStep item) := by
  intro read cs p h
  cases p with
  | done items rest =>
    exact length_of_skipBlanks_eq_cons (nextItem_eq_inr (listStep_eq_done h).1)
  | more read' rest =>
    obtain ⟨after, v, hNext, hValue, -⟩ := listStep_eq_more h
    exact lt_of_lt_of_le (hItem hValue) (length_nextItem hNext)

/-- Each step of a list takes a character at least. -/
theorem consumes_listStep {depth : Nat} : Consumes (listStep (value depth)) :=
  consumes_listStep_of length_value

/-- Each step of an object takes a character at least. -/
theorem consumes_objectStep {depth : Nat} : Consumes (objectStep (value depth)) := by
  intro read cs p h
  cases p with
  | done members rest =>
    exact length_of_skipBlanks_eq_cons (nextKey_eq_inr (objectStep_eq_done h).1)
  | more read' rest =>
    obtain ⟨after, key, after₁, after₂, v, hNext, hText, hColon, hValue, -⟩ :=
      objectStep_eq_more h
    calc rest.length < after₂.length := length_value hValue
      _ < after₁.length := length_colon hColon
      _ < after.length := length_text hText
      _ < cs.length := length_nextKey hNext

end FoodScan.Json.Reader
