import FoodScan.Proofs.Json.Grammar

/-!
# White space in JSON texts

`compact` takes the white space out of a text, but for what stands inside quotes. A JSON text is
still one afterwards, and for the same value (`TextOf.compact`), so two JSON texts that differ only
in white space have the same value: `eq_of_compact_eq`.
-/

namespace FoodScan.Json

open Reader Text

/-- Takes out the blanks that are not inside quotes; a backslash takes the next character with
it. -/
def compactChars : Bool → List Char → List Char
  | _, [] => []
  | true, '\\' :: c :: rest => '\\' :: c :: compactChars true rest
  | true, c :: rest => c :: compactChars (c != '"') rest
  | false, c :: rest =>
    if isBlank c then compactChars false rest else c :: compactChars (c == '"') rest

/-- A text without the white space outside of its quotes. -/
def compact (text : String) : String := String.ofList (compactChars false text.toList)

/-- Characters outside of quotes are left with others, whatever comes after them. -/
def Compacts (cs cs' : List Char) : Prop :=
  ∀ rest, compactChars false (cs ++ rest) = cs' ++ compactChars false rest

variable {cs cs' ds ds' rest : List Char} {c : Char}

/-- Pieces that start and end outside quotes are shortened one after the other. -/
theorem Compacts.append (h : Compacts cs cs') (h' : Compacts ds ds') :
    Compacts (cs ++ ds) (cs' ++ ds') := by
  intro rest
  rw [List.append_assoc, h, h', List.append_assoc]

/-- A character outside quotes stays, unless it is blank. -/
theorem Compacts.cons (hBlank : isBlank c = false) (hQuote : c ≠ '"') (h : Compacts cs cs') :
    Compacts (c :: cs) (c :: cs') := by
  intro rest
  rw [List.cons_append, compactChars, hBlank, if_neg Bool.false_ne_true, beq_false_of_ne hQuote, h,
    List.cons_append]

/-- Blanks outside quotes go. -/
theorem compacts_blank (h : Blank cs) : Compacts cs [] := by
  intro rest
  induction cs with
  | nil => rfl
  | cons c cs ih =>
    obtain ⟨hHead, hRest⟩ := List.forall_mem_cons.mp h
    rw [List.cons_append, compactChars, if_pos hHead]
    exact ih hRest

/-- The characters of a number stay. -/
theorem compacts_numerals (h : ∀ c ∈ cs, isNumeral c = true) : Compacts cs cs := by
  induction cs with
  | nil => exact fun _ => rfl
  | cons c cs ih =>
    obtain ⟨hHead, hRest⟩ := List.forall_mem_cons.mp h
    refine (ih hRest).cons (isBlank_of_isNumeral hHead) ?_
    rintro rfl
    cases hHead

-- ---------------------------------------------------------------------------
-- Inside quotes
-- ---------------------------------------------------------------------------

/-- Characters inside quotes stay as they are, and quotes are still open after them. -/
def StaysQuoted (cs : List Char) : Prop :=
  ∀ rest, compactChars true (cs ++ rest) = cs ++ compactChars true rest

/-- Characters inside quotes stay as they are, and close the quotes. -/
def ClosesQuotes (cs : List Char) : Prop :=
  ∀ rest, compactChars true (cs ++ rest) = cs ++ compactChars false rest

/-- Inside quotes everything stays up to the quote that ends them. -/
theorem compactChars_quoted (hBackslash : c ≠ '\\') (rest : List Char) :
    compactChars true (c :: rest) = c :: compactChars (c != '"') rest := by
  rw [compactChars]
  rintro d ds rfl
  exact absurd rfl hBackslash

theorem StaysQuoted.cons (hBackslash : c ≠ '\\') (hQuote : c ≠ '"') (h : StaysQuoted cs) :
    StaysQuoted (c :: cs) := by
  intro rest
  rw [List.cons_append, compactChars_quoted hBackslash, bne_iff_ne.mpr hQuote, h, List.cons_append]

/-- What does not leave quotes may stand before what closes them. -/
theorem StaysQuoted.append (h : StaysQuoted cs) (h' : ClosesQuotes ds) :
    ClosesQuotes (cs ++ ds) := by
  intro rest
  rw [List.append_assoc, h, h', List.append_assoc]

/-- A hexadecimal digit is neither a backslash nor a quote. -/
theorem staysQuoted_hexDigits (h : ∀ c ∈ cs, (hexValue? c).isSome = true) : StaysQuoted cs := by
  induction cs with
  | nil => exact fun _ => rfl
  | cons c cs ih =>
    obtain ⟨hHead, hRest⟩ := List.forall_mem_cons.mp h
    refine (ih hRest).cons ?_ ?_
    all_goals
      rintro rfl
      exact absurd hHead (by decide)

/-- A backslash takes the next character with it. -/
theorem staysQuoted_escape (c : Char) (h : StaysQuoted cs) : StaysQuoted ('\\' :: c :: cs) := by
  intro rest
  rw [List.cons_append, List.cons_append, compactChars, h]
  rfl

/-- An escape does not end quotes, be there a quote among its characters. -/
theorem exists_staysQuoted_of_skipEscape (h : skipEscape cs = .ok rest) :
    ∃ token, cs = token ++ rest ∧ StaysQuoted ('\\' :: token) := by
  unfold skipEscape at h
  split at h
  · cases h
  · obtain ⟨⟨code, rest⟩, hQuad, hRest⟩ := bind_eq_ok_iff.mp h
    obtain ⟨quad, rfl, hDigits, -⟩ := hexQuad_eq_ok hQuad
    cases hRest
    -- neither a digit nor a letter of the code closes the text
    exact ⟨'u' :: quad, rfl, staysQuoted_escape 'u' (staysQuoted_hexDigits hDigits)⟩
  · rename_i c rest _
    split at h
    · cases h
      exact ⟨[c], rfl, staysQuoted_escape c fun _ => rfl⟩
    · cases h

/-- What is read as text closes its quotes. -/
theorem exists_closesQuotes_of_scans {read : List Char} {s : String}
    (h : Scans textStep read cs s rest) : ∃ token, cs = token ++ rest ∧ ClosesQuotes token := by
  induction h with
  | done h =>
    unfold textStep at h
    split at h
    · cases h
    · cases h
      exact ⟨['"'], rfl, fun _ => rfl⟩
    · obtain ⟨_, -, h⟩ := bind_eq_ok_iff.mp h
      cases h
    · split at h <;> cases h
  | more h _ ih =>
    obtain ⟨later, rfl, hLater⟩ := ih
    unfold textStep at h
    split at h
    · cases h
    · cases h
    · -- a surrogate pair is one character, but two escapes
      obtain ⟨⟨c, after⟩, hEscape, hMore⟩ := bind_eq_ok_iff.mp h
      cases hMore
      rcases skipEscape_of_escape hEscape with hSkip | ⟨cs', hFirst, hSecond⟩
      · obtain ⟨token, rfl, hToken⟩ := exists_staysQuoted_of_skipEscape hSkip
        exact ⟨'\\' :: token ++ later, by simp, hToken.append hLater⟩
      · obtain ⟨second, rfl, hToken'⟩ := exists_staysQuoted_of_skipEscape hSecond
        obtain ⟨first, rfl, hToken⟩ := exists_staysQuoted_of_skipEscape hFirst
        exact ⟨'\\' :: first ++ ('\\' :: second ++ later), by simp,
          hToken.append (hToken'.append hLater)⟩
    · rename_i c after hQuote hBackslash
      split at h
      · cases h
      · cases h
        -- any other character neither escapes nor closes, and stands for itself
        have hSingle : StaysQuoted [c] := by
          refine StaysQuoted.cons ?_ ?_ fun _ => rfl
          · rintro rfl
            exact hBackslash rfl
          · rintro rfl
            exact hQuote rfl
        exact ⟨[c] ++ later, rfl, hSingle.append hLater⟩

/-- A text that the reader takes to the last character ends with the quote that closes it. -/
theorem closesQuotes_of_text {s : String} (h : text cs = .ok (s, [])) : ClosesQuotes cs := by
  obtain ⟨token, hToken, hCloses⟩ := exists_closesQuotes_of_scans (scans_of_scan h)
  rw [hToken, List.append_nil]
  exact hCloses

/-- A quoted text stays as it is. -/
theorem compacts_quoted (h : ClosesQuotes cs) : Compacts ('"' :: cs) ('"' :: cs) := by
  intro rest
  rw [List.cons_append, compactChars, if_neg (by decide)]
  exact congrArg ('"' :: ·) (h rest)

-- ---------------------------------------------------------------------------
-- Values and texts
-- ---------------------------------------------------------------------------

/-- There is nothing to leave out of a value that is neither a list nor an object. -/
theorem Atom.compacts {v : Json} (h : Atom v cs) : Compacts cs cs := by
  cases h with
  | null | true | false => exact fun _ => rfl
  | string hText => exact compacts_quoted (closesQuotes_of_text hText)
  | number hNumber => exact compacts_numerals (isNumeral_of_number hNumber)

/-- What is written for something is still written for it without the blanks. -/
def Compactable {α : Type} (P : α → List Char → Prop) : Prop :=
  ∀ v written, P v written → ∃ written', P v written' ∧ Compacts written written'

namespace Compactable

variable {α : Type} {P : α → List Char → Prop}

/-- Blanks around the items of a list may go. -/
theorem between (hItem : Compactable P) (later : Bool) : Compactable (Between P later) := by
  intro vs body h
  induction h with
  | done hBlanks => exact ⟨[], .done blank_nil, compacts_blank hBlanks⟩
  | first hBlanks hWritten _ ih =>
    -- the same items are written again, with no blanks around them
    obtain ⟨body, hBody, hRest⟩ := ih
    obtain ⟨written, hWritten', hFirst⟩ := hItem _ _ hWritten
    exact ⟨[] ++ (written ++ body), .first blank_nil hWritten' hBody,
      (compacts_blank hBlanks).append (hFirst.append hRest)⟩
  | later hBefore hAfter hWritten _ ih =>
    obtain ⟨body, hBody, hRest⟩ := ih
    obtain ⟨written, hWritten', hFirst⟩ := hItem _ _ hWritten
    refine ⟨[] ++ ',' :: ([] ++ (written ++ body)), .later blank_nil blank_nil hWritten' hBody, ?_⟩
    have hItems := (compacts_blank hAfter).append (hFirst.append hRest)
    exact (compacts_blank hBefore).append (hItems.cons rfl (by decide))

/-- Blanks around the colon of a member may go. -/
theorem member (hItem : Compactable P) : Compactable (Member P) := by
  rintro e member ⟨hKey, hBefore, hAfter, hWritten⟩
  obtain ⟨written, hWritten', hValue⟩ := hItem _ _ hWritten
  refine ⟨_, .intro hKey blank_nil blank_nil hWritten', ?_⟩
  have hColon := ((compacts_blank hAfter).append hValue).cons (c := ':') rfl (by decide)
  have hQuoted := compacts_quoted (closesQuotes_of_text hKey)
  exact hQuoted.append ((compacts_blank hBefore).append hColon)

theorem compound {deeper : Json → List Char → Prop} (hDeeper : Compactable deeper) :
    Compactable (Compound deeper) := by
  have hClose : ∀ {c}, isBlank c = false → c ≠ '"' → Compacts [c] [c] :=
    fun hBlank hQuote => Compacts.cons hBlank hQuote fun _ => rfl
  intro v written h
  cases h with
  | array hItems =>
    obtain ⟨body, hBody, hCompacts⟩ := hDeeper.between false _ _ hItems
    exact ⟨_, .array hBody, (hCompacts.append (hClose rfl (by decide))).cons rfl (by decide)⟩
  | object hMembers =>
    obtain ⟨body, hBody, hCompacts⟩ := hDeeper.member.between false _ _ hMembers
    exact ⟨_, .object hBody, (hCompacts.append (hClose rfl (by decide))).cons rfl (by decide)⟩

end Compactable

/-- **Values** may be written without blanks, by induction on how deep they are. -/
theorem compactable_written (depth : Nat) : Compactable (Written depth) := by
  induction depth with
  | zero => exact fun v written h => ⟨written, h, Atom.compacts h⟩
  | succ depth ih =>
    rintro v written (h | h)
    · exact ⟨written, .inl h, h.compacts⟩
    · obtain ⟨written', hWritten', hCompacts⟩ := ih.compound v written h
      exact ⟨written', .inr hWritten', hCompacts⟩

/-- **Compact texts.** Without its white space, a text is one for the same value. -/
theorem TextOf.compact {text : String} {v : Json} (h : TextOf text v) :
    TextOf (compact text) v := by
  obtain ⟨before, written, after, hText, hBefore, hWritten, hAfter⟩ := h
  obtain ⟨written', hWritten', hCompacts⟩ := compactable_written _ v written hWritten
  refine ⟨[], written', [], ?_, blank_nil, hWritten', blank_nil⟩
  have hWhole := ((compacts_blank hBefore).append (hCompacts.append (compacts_blank hAfter))) []
  rw [List.append_nil, ← hText, compactChars, List.append_nil] at hWhole
  rw [Json.compact, String.toList_ofList]
  exact hWhole

/-- A text is that of one value. -/
theorem TextOf.unique {text : String} {v w : Json} (h : TextOf text v) (h' : TextOf text w) :
    v = w := by
  have hRead := readRaw_eq_ok_iff.mpr h
  rw [readRaw_eq_ok_iff.mpr h'] at hRead
  exact (Except.ok.inj hRead).symm

/-- Texts that differ in blanks between tokens only are texts of the same value. -/
theorem eq_of_compact_eq {text text' : String} {v v' : Json} (h : TextOf text v)
    (h' : TextOf text' v') (hSame : compact text = compact text') : v = v' :=
  h.compact.unique (hSame ▸ h'.compact)

end FoodScan.Json
