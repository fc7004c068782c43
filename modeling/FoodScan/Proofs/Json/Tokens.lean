import FoodScan.Proofs.Json.Skipping

/-!
# What comes after a token does not change it

A reader of quoted text or of a number takes a token off the front of the characters that it is
given. It reads the same token in front of anything else; a number only in front of something that
does not go on with it (`EndsNumber`).

* `exists_token_of_text` — text, up to its closing quote.
* `takesNumeral_number` — numbers.
-/

namespace FoodScan

namespace Text

variable {σ α ε : Type} {step : σ → List Char → Except ε (Progress σ α)}

/-- What a step does, with something else left to read. -/
def Progress.onto (rest : List Char) : Progress σ α → Progress σ α
  | .more state _ => .more state rest
  | .done result _ => .done result rest

/-- Every step takes something off the front, whatever else comes. -/
def TakesTokens (step : σ → List Char → Except ε (Progress σ α)) : Prop :=
  ∀ state cs p, step state cs = .ok p → ∃ token, cs = token ++ left p ∧
    ∀ rest, step state (token ++ rest) = .ok (p.onto rest)

/-- A loop takes one token after the other, whatever comes behind. -/
theorem Scans.exists_token (hStep : TakesTokens step) {state : σ} {cs rest : List Char} {result : α}
    (h : Scans step state cs result rest) :
    ∃ token, cs = token ++ rest ∧ ∀ rest', Scans step state (token ++ rest') result rest' := by
  induction h with
  | done h =>
    obtain ⟨token, rfl, hToken⟩ := hStep _ _ _ h
    exact ⟨token, rfl, fun rest' => .done (hToken rest')⟩
  | more h _ ih =>
    -- the tokens of the steps are put one behind the other
    obtain ⟨first, rfl, hFirst⟩ := hStep _ _ _ h
    obtain ⟨later, hLater, hRest⟩ := ih
    refine ⟨first ++ later, ?_, fun rest' => ?_⟩
    · rw [List.append_assoc, ← hLater]
      rfl
    · rw [List.append_assoc]
      exact .more (hFirst _) (hRest rest')

end Text

namespace Json.Reader

open Text

variable {cs rest : List Char} {c : Char} {n : Number} {negative : Bool}

-- ---------------------------------------------------------------------------
-- Text
-- ---------------------------------------------------------------------------

/-- The characters of a number in base 16 are digits of it. -/
theorem hexValue?_isSome_of_number? {digits : List Char} {code : Nat}
    (h : number? 16 digits = some code) : ∀ c ∈ digits, (hexValue? c).isSome = true := by
  unfold number? at h
  generalize 0 = start at h
  induction digits generalizing start with
  | nil => nofun
  | cons c digits ih =>
    rw [List.foldlM_cons] at h
    obtain ⟨next, hNext, hRest⟩ := Option.bind_eq_some_iff.mp h
    obtain ⟨digit, hDigit, -⟩ := Option.bind_eq_some_iff.mp hNext
    exact List.forall_mem_cons.mpr ⟨by rw [hDigit]; rfl, ih next hRest⟩

/-- Four digits are a token. -/
theorem hexQuad_eq_ok {code : Nat} (h : hexQuad cs = .ok (code, rest)) :
    ∃ quad, cs = quad ++ rest ∧ (∀ c ∈ quad, (hexValue? c).isSome = true) ∧
      ∀ rest', hexQuad (quad ++ rest') = .ok (code, rest') := by
  unfold hexQuad at h
  split at h
  · rename_i x y z w cs
    split at h
    · rename_i code' hCode
      cases h
      refine ⟨[x, y, z, w], rfl, hexValue?_isSome_of_number? hCode, fun rest' => ?_⟩
      simp only [List.cons_append, List.nil_append, hexQuad, hCode]
    · cases h
  · split at h <;> cases h

/-- An escape by number is a token. -/
theorem exists_token_of_unicodeEscape (h : unicodeEscape cs = .ok (c, rest)) :
    ∃ token, cs = token ++ rest ∧ ∀ rest', unicodeEscape (token ++ rest') = .ok (c, rest') := by
  rw [unicodeEscape] at h
  obtain ⟨⟨code, cs₁⟩, hQuad, hUnit⟩ := bind_eq_ok_iff.mp h
  obtain ⟨quad, rfl, -, hToken⟩ := hexQuad_eq_ok hQuad
  dsimp only at hUnit
  split at hUnit
  · cases hUnit
  · rename_i hLow
    split at hUnit
    · rename_i hHigh
      obtain ⟨cs₂, hMark, hTail⟩ := bind_eq_ok_iff.mp hUnit
      obtain ⟨cs₃, hMark', hSecond⟩ := bind_eq_ok_iff.mp hTail
      obtain ⟨⟨low, cs₄⟩, hQuad', hPair⟩ := bind_eq_ok_iff.mp hSecond
      obtain rfl := pairMark_eq_ok_iff.mp hMark
      obtain rfl := pairMark_eq_ok_iff.mp hMark'
      obtain ⟨quad', rfl, -, hToken'⟩ := hexQuad_eq_ok hQuad'
      dsimp only at hPair
      split at hPair
      · rename_i hLowUnit
        obtain ⟨rfl, rfl⟩ := Prod.mk.inj (Except.ok.inj hPair)
        -- both halves of a pair belong to the token, the marks between them included
        refine ⟨quad ++ '\\' :: 'u' :: quad', by simp, fun rest' => ?_⟩
        have hSplit : (quad ++ '\\' :: 'u' :: quad') ++ rest' =
            quad ++ '\\' :: 'u' :: (quad' ++ rest') := by simp
        rw [hSplit, unicodeEscape, hToken, ok_bind]
        dsimp only
        rw [if_neg hLow, if_pos hHigh, pairMark, if_pos rfl, ok_bind, pairMark, if_pos rfl, ok_bind,
          hToken', ok_bind]
        dsimp only
        rw [if_pos hLowUnit]
      · cases hPair
    · rename_i hPlain
      obtain ⟨rfl, rfl⟩ := Prod.mk.inj (Except.ok.inj hUnit)
      refine ⟨quad, rfl, fun rest' => ?_⟩
      rw [unicodeEscape, hToken, ok_bind]
      dsimp only
      rw [if_neg hLow, if_neg hPlain]

/-- Any escape is a token. -/
theorem exists_token_of_escape (h : escape cs = .ok (c, rest)) :
    ∃ token, cs = token ++ rest ∧ ∀ rest', escape (token ++ rest') = .ok (c, rest') := by
  unfold escape at h
  split at h
  case h_10 =>
    obtain ⟨token, rfl, hToken⟩ := exists_token_of_unicodeEscape h
    exact ⟨'u' :: token, rfl, hToken⟩
  all_goals simp only [Except.ok.injEq, Prod.mk.injEq, reduceCtorEq] at h
  all_goals
    obtain ⟨rfl, rfl⟩ := h
    exact ⟨[_], rfl, fun _ => rfl⟩

/-- Each step of the reader of texts takes a token. -/
theorem takesTokens_textStep : TakesTokens textStep := by
  intro read cs p h
  unfold textStep at h
  split at h
  · cases h
  · cases h
    exact ⟨['"'], rfl, fun _ => rfl⟩
  · obtain ⟨⟨c, rest⟩, hEscape, hMore⟩ := bind_eq_ok_iff.mp h
    obtain ⟨token, rfl, hToken⟩ := exists_token_of_escape hEscape
    cases hMore
    refine ⟨'\\' :: token, rfl, fun rest' => ?_⟩
    rw [List.cons_append, textStep, hToken]
    rfl
  · rename_i c rest hQuote hBackslash
    split at h
    · cases h
    · rename_i hControl
      cases h
      -- the character is its own token: no case of the step looks beyond it
      refine ⟨[c], rfl, fun rest' => ?_⟩
      show textStep read (c :: rest') = _
      unfold textStep
      split <;> simp_all [Progress.onto]

/-- **Text.** -/
theorem exists_token_of_text {s : String} (h : text cs = .ok (s, rest)) :
    ∃ token, cs = token ++ rest ∧ ∀ rest', text (token ++ rest') = .ok (s, rest') := by
  obtain ⟨token, rfl, hToken⟩ := (scans_of_scan h).exists_token takesTokens_textStep
  exact ⟨token, rfl, fun rest' => (hToken rest').scan_eq consumes_textStep _⟩

/-- Text that is a token by itself is one in front of anything. -/
theorem text_append {s : String} (h : text cs = .ok (s, [])) (rest : List Char) :
    text (cs ++ rest) = .ok (s, rest) := by
  obtain ⟨token, hToken, hRead⟩ := exists_token_of_text h
  rw [hToken, List.append_nil]
  exact hRead rest

-- ---------------------------------------------------------------------------
-- Digits
-- ---------------------------------------------------------------------------

/-- The characters that numbers are written with. -/
def isNumeral (c : Char) : Bool :=
  c.isDigit || c == '-' || c == '+' || c == '.' || c == 'e' || c == 'E'

/-- What comes does not go on with a number. -/
def EndsNumber (cs : List Char) : Prop := ∀ c rest, cs = c :: rest → isNumeral c = false

theorem isNumeral_of_isDigit (h : c.isDigit = true) : isNumeral c = true := by
  rw [isNumeral, h]
  rfl

theorem endsNumber_nil : EndsNumber [] := nofun

/-- A number ends before any character that is none of numbers. -/
theorem EndsNumber.cons (h : isNumeral c = false) (rest : List Char) : EndsNumber (c :: rest) := by
  rintro _ _ ⟨⟩
  exact h

/-- No digit comes next. -/
def EndsDigits (cs : List Char) : Prop := ∀ c rest, cs = c :: rest → c.isDigit = false

/-- Where a number ends, its digits do. -/
theorem EndsNumber.endsDigits (h : EndsNumber cs) : EndsDigits cs := by
  intro c rest hCs
  have hNumeral := h c rest hCs
  rw [isNumeral] at hNumeral
  simp_all

theorem endsDigits_dropWhile (cs : List Char) : EndsDigits (cs.dropWhile Char.isDigit) := by
  intro c rest hCs
  have hHead := List.head?_dropWhile_not Char.isDigit cs
  rw [hCs] at hHead
  simpa using hHead

section Digits

variable {digits : List Char} (hDigits : ∀ c ∈ digits, c.isDigit = true) (hEnds : EndsDigits rest)
include hDigits hEnds

/-- The digits in front are those up to where they end. -/
theorem takeWhile_digits : (digits ++ rest).takeWhile Char.isDigit = digits := by
  rw [List.takeWhile_append_of_pos hDigits]
  cases rest with
  | nil => simp
  | cons c rest =>
    rw [List.takeWhile_cons_of_neg (by simp [hEnds c rest rfl]), List.append_nil]

theorem dropWhile_digits : (digits ++ rest).dropWhile Char.isDigit = rest := by
  rw [List.dropWhile_append_of_pos hDigits]
  cases rest with
  | nil => rfl
  | cons c rest => rw [List.dropWhile_cons_of_neg (by simp [hEnds c rest rfl])]

end Digits

-- ---------------------------------------------------------------------------
-- Exponents
-- ---------------------------------------------------------------------------

/-- What is read of a number takes a token off the front. -/
def TakesNumeral (reader : List Char → Except Fault (Number × List Char)) (cs : List Char)
    (n : Number) (rest : List Char) : Prop :=
  ∃ token, cs = token ++ rest ∧ (∀ c ∈ token, isNumeral c = true) ∧
    ∀ rest', EndsNumber rest' → reader (token ++ rest') = .ok (n, rest')

/-- A float is made from what was read before, whatever comes behind. -/
theorem finishFloat_eq_ok {d : Digits} (h : finishFloat negative d cs = .ok (n, rest)) :
    cs = rest ∧ ∀ rest', finishFloat negative d rest' = .ok (n, rest') := by
  refine ⟨rest_of_finishFloat h, fun rest' => ?_⟩
  rw [finishFloat] at h ⊢
  split at h
  · cases h
    rfl
  · cases h

/-- The sign of a power of ten is a token, or there is none. -/
theorem exponentSign_eq_cons {down : Bool} (h : exponentSign cs = (down, c :: rest))
    (hDigit : c.isDigit = true) :
    ∃ sign, cs = sign ++ c :: rest ∧ (∀ d ∈ sign, isNumeral d = true) ∧
      ∀ rest', exponentSign (sign ++ c :: rest') = (down, c :: rest') := by
  unfold exponentSign at h
  split at h
  · cases h
    exact ⟨['+'], rfl, List.forall_mem_singleton.mpr rfl, fun _ => rfl⟩
  · cases h
    exact ⟨['-'], rfl, List.forall_mem_singleton.mpr rfl, fun _ => rfl⟩
  · cases h
    -- no sign: the digit that comes first is none itself
    refine ⟨[], rfl, nofun, fun rest' => ?_⟩
    rw [List.nil_append]
    unfold exponentSign
    split
    · rename_i hCs
      cases hCs
      exact absurd hDigit (by decide)
    · rename_i hCs
      cases hCs
      exact absurd hDigit (by decide)
    · rfl

/-- The digits of an exponent: all of them, or as many as it takes to pass the limit. -/
theorem exists_token_of_exponentDigits (m : Nat) (cs : List Char) :
    ∃ token, cs = token ++ (exponentDigits m cs).2 ∧ (∀ c ∈ token, c.isDigit = true) ∧
      ∀ rest', (exponentDigits m cs).1 = none ∨ EndsDigits rest' →
        exponentDigits m (token ++ rest') = ((exponentDigits m cs).1, rest') := by
  induction cs generalizing m with
  | nil =>
    refine ⟨[], rfl, nofun, fun rest' hRest => ?_⟩
    have hEnds := hRest.resolve_left (by simp [exponentDigits])
    cases rest' with
    | nil => rfl
    | cons c rest' => simp [exponentDigits, hEnds c rest' rfl]
  | cons c cs ih =>
    rw [exponentDigits]
    by_cases hDigit : c.isDigit = true
    · rw [if_pos hDigit]
      dsimp only
      -- reading stops short at the limit, with digits left, and then nothing is asked of what comes
      -- behind
      by_cases hLimit : exponentLimit ≤ m * 10 + digitValue c
      · rw [if_pos hLimit]
        refine ⟨[c], rfl, by simpa using hDigit, fun rest' _ => ?_⟩
        rw [List.singleton_append, exponentDigits, if_pos hDigit]
        exact if_pos hLimit
      · rw [if_neg hLimit]
        obtain ⟨token, hCs, hDigits, hToken⟩ := ih (m * 10 + digitValue c)
        refine ⟨c :: token, congrArg (c :: ·) hCs, List.forall_mem_cons.mpr ⟨hDigit, hDigits⟩,
          fun rest' hRest => ?_⟩
        rw [List.cons_append, exponentDigits, if_pos hDigit]
        dsimp only
        rw [if_neg hLimit]
        exact hToken rest' hRest
    · rw [if_neg hDigit]
      refine ⟨[], rfl, nofun, fun rest' hRest => ?_⟩
      have hEnds := hRest.resolve_left (by simp)
      cases rest' with
      | nil => rfl
      | cons c rest' => simp [exponentDigits, hEnds c rest' rfl]

/-- What is read after the sign and the first digit of an exponent. -/
theorem exponent_signed {d : Digits} {sign : List Char} {down : Bool}
    (hSign : exponentSign (sign ++ c :: cs) = (down, c :: cs)) (hDigit : c.isDigit = true) :
    exponent negative d (sign ++ c :: cs) =
      match exponentDigits (digitValue c) cs with
      | (some m, rest) =>
        finishFloat negative { d with power := if down then d.power - m else d.power + m } rest
      | (none, rest) =>
        if d.value ≠ 0 ∧ !down then .error (.before .numberOutOfRange rest)
        else .ok (.float (if negative then Binary64.zero.neg else Binary64.zero),
          rest.dropWhile Char.isDigit) := by
  rw [exponent, hSign]
  exact if_pos hDigit

/-- An exponent that is read has a digit after its sign. -/
theorem exists_sign_of_exponent {d : Digits} (h : exponent negative d cs = .ok (n, rest)) :
    ∃ sign c after down, cs = sign ++ c :: after ∧ c.isDigit = true ∧
      (∀ d ∈ sign, isNumeral d = true) ∧
      ∀ after', exponentSign (sign ++ c :: after') = (down, c :: after') := by
  rw [exponent] at h
  -- an exponent has a digit behind its sign, or it would not have been read
  cases hSign : exponentSign cs with
  | mk down after =>
    rw [hSign] at h
    cases after with
    | nil => cases h
    | cons c after =>
      dsimp only at h
      split at h
      · rename_i hDigit
        obtain ⟨sign, hCs, hNumeral, hSigned⟩ := exponentSign_eq_cons hSign hDigit
        exact ⟨sign, c, after, down, hCs, hDigit, hNumeral, hSigned⟩
      · cases h

/-- **A power of ten** is read to where its digits end. -/
theorem takesNumeral_exponent {d : Digits} (h : exponent negative d cs = .ok (n, rest)) :
    TakesNumeral (exponent negative d) cs n rest := by
  obtain ⟨sign, c, after, down, rfl, hDigit, hSignNumeral, hSigned⟩ := exists_sign_of_exponent h
  rw [exponent_signed (hSigned after) hDigit] at h
  obtain ⟨digits, hAfter, hDigits, hToken⟩ := exists_token_of_exponentDigits (digitValue c) after
  have hNumeral : ∀ d ∈ sign ++ c :: digits, isNumeral d = true := by
    rw [List.forall_mem_append, List.forall_mem_cons]
    exact ⟨hSignNumeral, isNumeral_of_isDigit hDigit,
      fun d hd => isNumeral_of_isDigit (hDigits d hd)⟩
  split at h
  · rename_i m after' hAll
    rw [hAll] at hAfter hToken
    subst hAfter
    obtain ⟨rfl, hFloat⟩ := finishFloat_eq_ok h
    refine ⟨sign ++ c :: digits, by simp, hNumeral, fun rest' hEnds => ?_⟩
    rw [List.append_assoc, List.cons_append, exponent_signed (hSigned _) hDigit,
      hToken rest' (.inr hEnds.endsDigits)]
    exact hFloat rest'
  · -- past the limit the digits that are left are passed over
    rename_i after' hMost
    rw [hMost] at hAfter hToken
    subst hAfter
    split at h
    · cases h
    · rename_i hSmall
      obtain ⟨rfl, rfl⟩ := Prod.mk.inj (Except.ok.inj h)
      have hLater : ∀ d ∈ after'.takeWhile Char.isDigit, d.isDigit = true :=
        fun _ => List.mem_takeWhile_imp
      refine ⟨(sign ++ c :: digits) ++ after'.takeWhile Char.isDigit, by simp, ?_,
        fun rest' hEnds => ?_⟩
      · rw [List.forall_mem_append]
        exact ⟨hNumeral, fun d hd => isNumeral_of_isDigit (hLater d hd)⟩
      · rw [List.append_assoc, List.append_assoc, List.cons_append,
          exponent_signed (hSigned _) hDigit, hToken _ (.inl rfl)]
        dsimp only
        rw [if_neg hSmall, dropWhile_digits hLater hEnds.endsDigits]

-- ---------------------------------------------------------------------------
-- Numbers
-- ---------------------------------------------------------------------------

namespace TakesNumeral

variable {reader reader' : List Char → Except Fault (Number × List Char)}

/-- A reader may look at one character of numbers first. -/
theorem cons (h : TakesNumeral reader cs n rest) (hNumeral : isNumeral c = true)
    (hReader : ∀ cs, reader' (c :: cs) = reader cs) : TakesNumeral reader' (c :: cs) n rest := by
  obtain ⟨token, rfl, hToken, hRead⟩ := h
  refine ⟨c :: token, rfl, List.forall_mem_cons.mpr ⟨hNumeral, hToken⟩, fun rest' hEnds => ?_⟩
  rw [List.cons_append, hReader]
  exact hRead rest' hEnds

/-- Digits are read up to what is no digit. -/
theorem digits {digits : List Char} (h : TakesNumeral reader cs n rest)
    (hDigits : ∀ c ∈ digits, c.isDigit = true) (hCs : EndsDigits cs)
    (hReader : ∀ cs, EndsDigits cs → reader' (digits ++ cs) = reader cs) :
    TakesNumeral reader' (digits ++ cs) n rest := by
  obtain ⟨token, rfl, hToken, hRead⟩ := h
  refine ⟨digits ++ token, by rw [List.append_assoc], ?_, fun rest' hEnds => ?_⟩
  · rw [List.forall_mem_append]
    exact ⟨fun c hc => isNumeral_of_isDigit (hDigits c hc), hToken⟩
  · -- no digit comes behind the given ones: the token starts with none, and if it is empty neither
    -- does the rest
    have hAfter : EndsDigits (token ++ rest') := by
      cases token with
      | nil => exact hEnds.endsDigits
      | cons c token =>
        rintro _ _ ⟨⟩
        exact hCs c _ rfl
    rw [List.append_assoc, hReader _ hAfter]
    exact hRead rest' hEnds

end TakesNumeral

/-- What may follow the digits of a fraction. -/
def power (negative : Bool) (d : Digits) : List Char → Except Fault (Number × List Char)
  | 'e' :: rest => exponent negative d rest
  | 'E' :: rest => exponent negative d rest
  | rest => finishFloat negative d rest

/-- The same where there may be none. -/
theorem takesNumeral_power {d : Digits} (h : power negative d cs = .ok (n, rest)) :
    TakesNumeral (power negative d) cs n rest := by
  unfold power at h
  split at h
  · exact (takesNumeral_exponent h).cons rfl fun _ => rfl
  · exact (takesNumeral_exponent h).cons rfl fun _ => rfl
  · -- no power: a letter for one behind the number would go on with it
    obtain ⟨rfl, hFloat⟩ := finishFloat_eq_ok h
    refine ⟨[], rfl, nofun, fun rest' hEnds => ?_⟩
    rw [List.nil_append]
    unfold power
    split
    · exact absurd (hEnds _ _ rfl) (by decide)
    · exact absurd (hEnds _ _ rfl) (by decide)
    · exact hFloat rest'

/-- The digits of a fraction are read one after the other. -/
theorem fraction_digits {d : Digits} {digits : List Char} (hne : digits ≠ [])
    (hDigits : ∀ c ∈ digits, c.isDigit = true) (hCs : EndsDigits cs) :
    fraction negative d (digits ++ cs) =
      power negative (digits.foldl Digits.pushFraction { d with full := false }) cs := by
  rw [fraction]
  dsimp only
  rw [takeWhile_digits hDigits hCs, dropWhile_digits hDigits hCs,
    if_neg (by simpa using hne)]
  rfl

/-- **A fraction** is read to where the number ends. -/
theorem takesNumeral_fraction {d : Digits} (h : fraction negative d cs = .ok (n, rest)) :
    TakesNumeral (fraction negative d) cs n rest := by
  have hDigits : ∀ c ∈ cs.takeWhile Char.isDigit, c.isDigit = true :=
    fun _ => List.mem_takeWhile_imp
  have hEnds := endsDigits_dropWhile cs
  -- without a digit there is no fraction, and the reader fails
  by_cases hne : cs.takeWhile Char.isDigit = []
  · rw [fraction] at h
    dsimp only at h
    rw [hne, if_pos List.isEmpty_nil] at h
    split at h <;> cases h
  · rw [← List.takeWhile_append_dropWhile (p := Char.isDigit) (l := cs)] at h ⊢
    rw [fraction_digits hne hDigits hEnds] at h
    exact (takesNumeral_power h).digits hDigits hEnds fun _ => fraction_digits hne hDigits

/-- A number of digits alone. -/
def whole (negative : Bool) (d : Digits) (rest : List Char) : Except Fault (Number × List Char) :=
  if d.full then finishFloat negative d rest
  else if !negative then .ok (.integer d.value, rest)
  else if 1 ≤ d.value ∧ d.value ≤ 0x8000000000000000 then .ok (.integer (-d.value), rest)
  else .ok (.float (Binary64.ofRatio true d.value 1), rest)

/-- A whole number is made from what was read before, whatever comes behind. -/
theorem whole_eq_ok {d : Digits} (h : whole negative d cs = .ok (n, rest)) :
    cs = rest ∧ ∀ rest', whole negative d rest' = .ok (n, rest') := by
  unfold whole at h ⊢
  split_ifs at h ⊢
  · exact finishFloat_eq_ok h
  all_goals
    cases h
    exact ⟨rfl, fun _ => rfl⟩

/-- What comes after the whole digits is read to where the number ends. -/
theorem takesNumeral_finishNumber {d : Digits} (h : finishNumber negative d cs = .ok (n, rest)) :
    TakesNumeral (finishNumber negative d) cs n rest := by
  unfold finishNumber at h
  split at h
  · exact (takesNumeral_fraction h).cons rfl fun _ => rfl
  · exact (takesNumeral_exponent h).cons rfl fun _ => rfl
  · exact (takesNumeral_exponent h).cons rfl fun _ => rfl
  · obtain ⟨rfl, hWhole⟩ := whole_eq_ok h
    refine ⟨[], rfl, nofun, fun rest' hEnds => ?_⟩
    rw [List.nil_append]
    unfold finishNumber
    split
    · exact absurd (hEnds _ _ rfl) (by decide)
    · exact absurd (hEnds _ _ rfl) (by decide)
    · exact absurd (hEnds _ _ rfl) (by decide)
    · exact hWhole rest'

/-- A zero in front stands alone. -/
theorem unsigned_zero (hCs : EndsDigits cs) :
    unsigned negative ('0' :: cs) = finishNumber negative ⟨0, 0, false⟩ cs := by
  rw [unsigned]
  refine if_neg ?_
  cases cs with
  | nil => simp
  | cons c cs => simp [hCs c cs rfl]

/-- Other digits are read one after the other. -/
theorem unsigned_digits {digits : List Char} (hFirst : ∀ rest, digits ≠ '0' :: rest)
    (hne : digits ≠ []) (hDigits : ∀ c ∈ digits, c.isDigit = true) (hCs : EndsDigits cs) :
    unsigned negative (digits ++ cs) =
      finishNumber negative (digits.foldl Digits.pushWhole ⟨0, 0, false⟩) cs := by
  obtain ⟨c, digits, rfl⟩ := List.exists_cons_of_ne_nil hne
  -- the reader takes all digits there are, which are those given, since none comes behind
  have hRead : unsigned negative (c :: (digits ++ cs)) =
      finishNumber negative (((c :: digits ++ cs).takeWhile Char.isDigit).foldl Digits.pushWhole
        ⟨0, 0, false⟩) ((c :: digits ++ cs).dropWhile Char.isDigit) := by
    unfold unsigned
    split
    · rename_i h
      cases h
    · rename_i h
      cases h
      exact absurd rfl (hFirst digits)
    · rename_i h
      cases h
      exact if_pos (hDigits c List.mem_cons_self)
  rw [List.cons_append, hRead, takeWhile_digits hDigits hCs, dropWhile_digits hDigits hCs]

/-- **A number without a sign** is read to where it ends. -/
theorem takesNumeral_unsigned (h : unsigned negative cs = .ok (n, rest)) :
    TakesNumeral (unsigned negative) cs n rest := by
  cases cs with
  | nil => cases h
  | cons c cs =>
    -- a zero in front is all of the whole digits, so the two cases have different tokens
    by_cases hZero : c = '0'
    · subst hZero
      have hEnds : EndsDigits cs := by
        rintro d cs ⟨⟩
        rw [← Bool.not_eq_true]
        intro hDigit
        rw [unsigned, if_pos (by simpa using hDigit)] at h
        cases h
      have hDigits : ∀ d ∈ ['0'], d.isDigit = true := List.forall_mem_singleton.mpr rfl
      rw [unsigned_zero hEnds] at h
      exact (takesNumeral_finishNumber h).digits hDigits hEnds fun _ => unsigned_zero
    · have hDigit : c.isDigit = true := by
        by_contra hNot
        unfold unsigned at h
        split at h
        · cases h
        · rename_i hCs
          exact hZero (List.cons.inj hCs).1
        · rename_i hCs
          cases hCs
          rw [if_neg hNot] at h
          cases h
      have hDigits : ∀ d ∈ (c :: cs).takeWhile Char.isDigit, d.isDigit = true :=
        fun _ => List.mem_takeWhile_imp
      have hEnds := endsDigits_dropWhile (c :: cs)
      have hFirst : (c :: cs).takeWhile Char.isDigit = c :: cs.takeWhile Char.isDigit :=
        List.takeWhile_cons_of_pos hDigit
      have hRead : ∀ {cs'}, EndsDigits cs' →
          unsigned negative ((c :: cs).takeWhile Char.isDigit ++ cs') = _ :=
        unsigned_digits (by simp [hFirst, hZero]) (by simp [hFirst]) hDigits
      rw [← List.takeWhile_append_dropWhile (p := Char.isDigit) (l := c :: cs)] at h ⊢
      rw [hRead hEnds] at h
      exact (takesNumeral_finishNumber h).digits hDigits hEnds fun _ => hRead

/-- **Numbers.** -/
theorem takesNumeral_number (h : number cs = .ok (n, rest)) : TakesNumeral number cs n rest := by
  unfold number at h
  split at h
  · exact (takesNumeral_unsigned h).cons rfl fun _ => rfl
  · rename_i hUnsigned
    -- without a sign the token is that of the digits, which do not start with one
    obtain ⟨token, rfl, hToken, hRead⟩ := takesNumeral_unsigned h
    refine ⟨token, rfl, hToken, fun rest' hEnds => ?_⟩
    cases token with
    | nil => cases hRead [] endsNumber_nil
    | cons c token =>
      rw [number]
      · exact hRead rest' hEnds
      · rintro cs ⟨⟩
        exact hUnsigned _ rfl

/-- A number that is a token by itself is one in front of what does not go on with it. -/
theorem number_append (h : number cs = .ok (n, [])) (hRest : EndsNumber rest) :
    number (cs ++ rest) = .ok (n, rest) := by
  obtain ⟨token, hToken, -, hRead⟩ := takesNumeral_number h
  rw [hToken, List.append_nil]
  exact hRead rest hRest

/-- A number has no other characters than those of numbers. -/
theorem isNumeral_of_number (h : number cs = .ok (n, [])) : ∀ c ∈ cs, isNumeral c = true := by
  obtain ⟨token, hToken, hNumeral, -⟩ := takesNumeral_number h
  rw [hToken, List.append_nil]
  exact hNumeral

end Json.Reader

end FoodScan
