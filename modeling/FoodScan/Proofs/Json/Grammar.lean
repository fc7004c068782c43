import FoodScan.Proofs.Json.Tokens

/-!
# The grammar of JSON texts

`Json.TextOf` says which texts are written for which value, with the members of an object in text
order and a repeated key repeated. Lists and objects are built up from the texts of what is in them,
blanks may stand around every item, key and colon, and nothing else is white space. Numbers and
quoted text are the tokens that their readers take in whole; as these do, the grammar leaves out
numbers beyond every double and lone surrogates, and it nests lists and objects at most 127 deep.

* `Written` — the values that nest at most so deep, without blanks around them.
* `exists_written_of_value` and `value_of_written` — the reader follows the grammar, and back.

Main result: `readRaw_eq_ok_iff`.
-/

namespace FoodScan.Json

open Reader Text

-- ---------------------------------------------------------------------------
-- The grammar
-- ---------------------------------------------------------------------------

/-- Nothing but white space. -/
def Blank (cs : List Char) : Prop := ∀ c ∈ cs, isBlank c = true

section

variable {α : Type}

/-- What stands between brackets, from the start or after an item: items, each of them but the first
after a comma. -/
inductive Between (item : α → List Char → Prop) : Bool → List α → List Char → Prop
  | done {later : Bool} {blanks : List Char} (h : Blank blanks) : Between item later [] blanks
  | first {v : α} {vs : List α} {blanks written rest : List Char} (hBlanks : Blank blanks)
      (h : item v written) (hRest : Between item true vs rest) :
      Between item false (v :: vs) (blanks ++ (written ++ rest))
  | later {v : α} {vs : List α} {before after written rest : List Char} (hBefore : Blank before)
      (hAfter : Blank after) (h : item v written) (hRest : Between item true vs rest) :
      Between item true (v :: vs) (before ++ ',' :: (after ++ (written ++ rest)))

/-- A key in quotes, a colon, and a value. -/
inductive Member (item : α → List Char → Prop) : String × α → List Char → Prop
  | intro {key : String} {v : α} {quoted before after written : List Char}
      (hKey : text quoted = .ok (key, [])) (hBefore : Blank before) (hAfter : Blank after)
      (h : item v written) :
      Member item (key, v) ('"' :: (quoted ++ (before ++ ':' :: (after ++ written))))

end

/-- Values that are neither lists nor objects. -/
inductive Atom : Json → List Char → Prop
  | null : Atom .null ['n', 'u', 'l', 'l']
  | true : Atom (.bool true) ['t', 'r', 'u', 'e']
  | false : Atom (.bool false) ['f', 'a', 'l', 's', 'e']
  | string {cs : List Char} {s : String} (h : text cs = .ok (s, [])) : Atom (.string s) ('"' :: cs)
  | number {cs : List Char} {n : Number} (h : Reader.number cs = .ok (n, [])) : Atom (.number n) cs

/-- Lists and objects of values that are written one level deeper. -/
inductive Compound (deeper : Json → List Char → Prop) : Json → List Char → Prop
  | array {items : List Json} {cs : List Char} (h : Between deeper false items cs) :
      Compound deeper (.array items) ('[' :: (cs ++ [']']))
  | object {members : List (String × Json)} {cs : List Char}
      (h : Between (Member deeper) false members cs) :
      Compound deeper (.object members) ('\x7b' :: (cs ++ ['\x7d']))

/-- Values whose lists and objects nest at most `depth` deep. -/
def Written : Nat → Json → List Char → Prop
  | 0, v, cs => Atom v cs
  | depth + 1, v, cs => Atom v cs ∨ Compound (Written depth) v cs

/-- A text is written for a value. -/
def TextOf (text : String) (v : Json) : Prop :=
  ∃ before written after, text.toList = before ++ (written ++ after) ∧
    Blank before ∧ Written depthLimit v written ∧ Blank after

-- ---------------------------------------------------------------------------
-- Blanks and words
-- ---------------------------------------------------------------------------

theorem Blank.append {cs ds : List Char} (h : Blank cs) (h' : Blank ds) : Blank (cs ++ ds) :=
  List.forall_mem_append.mpr ⟨h, h'⟩

theorem blank_nil : Blank [] := nofun

namespace Reader

variable {cs rest blanks : List Char} {c : Char}

/-- What is skipped are blanks. -/
theorem exists_blanks (cs : List Char) : ∃ blanks, Blank blanks ∧ cs = blanks ++ skipBlanks cs :=
  ⟨cs.takeWhile isBlank, fun _ => List.mem_takeWhile_imp, List.takeWhile_append_dropWhile.symm⟩

/-- Blanks are skipped, however many there are. -/
theorem skipBlanks_append (h : Blank blanks) : skipBlanks (blanks ++ cs) = skipBlanks cs :=
  List.dropWhile_append_of_pos h

theorem skipBlanks_cons (h : isBlank c = false) : skipBlanks (c :: cs) = c :: cs :=
  List.dropWhile_cons_of_neg (by rw [h]; exact Bool.false_ne_true)

theorem skipBlanks_eq_nil_iff : skipBlanks cs = [] ↔ Blank cs := List.dropWhile_eq_nil_iff

theorem isNumeral_of_isBlank (h : isBlank c = true) : isNumeral c = false := by
  simp only [isBlank, Bool.or_eq_true, beq_iff_eq] at h
  rcases h with ((rfl | rfl) | rfl) | rfl <;> rfl

theorem isBlank_of_isNumeral (h : isNumeral c = true) : isBlank c = false := by
  rw [← Bool.not_eq_true]
  intro hBlank
  rw [isNumeral_of_isBlank hBlank] at h
  cases h

theorem endsNumber_blanks (h : Blank blanks) (hRest : EndsNumber rest) :
    EndsNumber (blanks ++ rest) := by
  cases blanks with
  | nil => exact hRest
  | cons c blanks => exact .cons (isNumeral_of_isBlank (h c List.mem_cons_self)) _

/-- A word is read where its letters stand. -/
theorem word_eq_ok_iff {letters : List Char} :
    word letters cs = .ok rest ↔ cs = letters ++ rest := by
  induction letters generalizing cs with
  | nil => simp [word]
  | cons letter letters ih =>
    cases cs with
    | nil => simp [word]
    | cons c cs =>
      rw [word]
      split
      · rename_i hSame
        rw [ih, List.cons_append, List.cons.injEq, and_iff_right hSame]
      · rename_i hOther
        simp [hOther]

/-- A colon is read behind blanks. -/
theorem colon_eq_ok_iff : colon cs = .ok rest ↔ skipBlanks cs = ':' :: rest := by
  rw [colon]
  split <;> simp_all

end Reader

variable {cs rest blanks : List Char} {c : Char}

-- ---------------------------------------------------------------------------
-- What is read is written
-- ---------------------------------------------------------------------------

section Sound

variable {α : Type} {item : List Char → Except Fault (α × List Char)}
  {P : α → List Char → Prop}
  (hItem : ∀ {cs v rest}, item cs = .ok (v, rest) →
    ∃ blanks written, Blank blanks ∧ cs = blanks ++ (written ++ rest) ∧ P v written)
include hItem

/-- **Lists** that are read are written as the grammar says, by induction on the steps. -/
theorem between_of_listStep {read items : List α} (h : Scans (listStep item) read cs items rest) :
    ∃ vs body, items = read.reverse ++ vs ∧ cs = body ++ ']' :: rest ∧
      Between P (!read.isEmpty) vs body := by
  -- the induction is on the steps of the reader: the last one is the bracket, every other one an
  -- item
  induction h with
  | done h =>
    obtain ⟨hNext, rfl⟩ := listStep_eq_done h
    obtain ⟨blanks, hBlanks, hCs⟩ := exists_blanks _
    rw [nextItem_eq_inr hNext] at hCs
    exact ⟨[], blanks, by simp, hCs, .done hBlanks⟩
  | more h _ ih =>
    obtain ⟨after, v, hNext, hValue, rfl⟩ := listStep_eq_more h
    obtain ⟨vs, body, rfl, rfl, hBody⟩ := ih
    obtain ⟨blanks, written, hBlanks, rfl, hWritten⟩ := hItem hValue
    obtain ⟨before, hBefore, hCs⟩ := exists_blanks _
    rcases nextItem_eq_inl hNext with
      ⟨hFirst, c, rest', hSkipped, -, hAfter⟩ | ⟨hLater, rest', hSkipped, hAfter⟩
    · rw [hSkipped, ← hAfter] at hCs
      refine ⟨v :: vs, (before ++ blanks) ++ (written ++ body), by simp, by simp [hCs], ?_⟩
      rw [hFirst]
      exact .first (hBefore.append hBlanks) hWritten hBody
    · obtain ⟨between, hBetween, hRest'⟩ := exists_blanks rest'
      rw [hAfter] at hRest'
      rw [hSkipped, hRest'] at hCs
      refine ⟨v :: vs, before ++ ',' :: ((between ++ blanks) ++ (written ++ body)), by simp,
        by simp [hCs], ?_⟩
      rw [hLater]
      exact .later hBefore (hBetween.append hBlanks) hWritten hBody

/-- **Objects** that are read are written as the grammar says, by induction on the steps. -/
theorem between_of_objectStep {read members : List (String × α)}
    (h : Scans (objectStep item) read cs members rest) :
    ∃ es body, members = read.reverse ++ es ∧ cs = body ++ '\x7d' :: rest ∧
      Between (Member P) (!read.isEmpty) es body := by
  induction h with
  | done h =>
    obtain ⟨hNext, rfl⟩ := objectStep_eq_done h
    obtain ⟨blanks, hBlanks, hCs⟩ := exists_blanks _
    rw [nextKey_eq_inr hNext] at hCs
    exact ⟨[], blanks, by simp, hCs, .done hBlanks⟩
  | @more read _ cs _ _ rest h _ ih =>
    obtain ⟨after, key, after₁, after₂, v, hNext, hText, hColon, hValue, rfl⟩ :=
      objectStep_eq_more h
    obtain ⟨es, body, rfl, rfl, hBody⟩ := ih
    obtain ⟨blanks, written, hBlanks, rfl, hWritten⟩ := hItem hValue
    obtain ⟨quoted, rfl, hQuoted⟩ := exists_token_of_text hText
    obtain ⟨beforeColon, hBeforeColon, hAfter₁⟩ := exists_blanks after₁
    rw [colon_eq_ok_iff.mp hColon] at hAfter₁
    have hKey : text quoted = .ok (key, []) := by simpa using hQuoted []
    -- what a step has taken, put together: the quoted key, the colon between blanks, the value
    obtain ⟨member, hMember, hTaken⟩ : ∃ member, Member P (key, v) member ∧
        '"' :: (quoted ++ after₁) = member ++ (body ++ '\x7d' :: rest) :=
      ⟨_, .intro hKey hBeforeColon hBlanks hWritten, by simp [hAfter₁]⟩
    obtain ⟨before, hBefore, hCs⟩ := exists_blanks _
    rcases nextKey_eq_inl hNext with ⟨hFirst, hSkipped⟩ | ⟨hLater, rest', hSkipped, hSkipped'⟩
    · rw [hSkipped, hTaken] at hCs
      refine ⟨(key, v) :: es, before ++ (member ++ body), by simp, by simp [hCs], ?_⟩
      rw [hFirst]
      exact .first hBefore hMember hBody
    · obtain ⟨between, hBetween, hRest'⟩ := exists_blanks rest'
      rw [hSkipped', hTaken] at hRest'
      rw [hSkipped, hRest'] at hCs
      refine ⟨(key, v) :: es, before ++ ',' :: (between ++ (member ++ body)), by simp,
        by simp [hCs], ?_⟩
      rw [hLater]
      exact .later hBefore hBetween hMember hBody

end Sound

/-- What is written for an atom is written at any depth. -/
theorem Written.atom {depth : Nat} {v : Json} (h : Atom v cs) : Written depth v cs := by
  cases depth with
  | zero => exact h
  | succ depth => exact .inl h

/-- What has been read stands in the text, after blanks. -/
theorem exists_written_of_value {depth : Nat} {v : Json} (h : value depth cs = .ok (v, rest)) :
    ∃ blanks written, Blank blanks ∧ cs = blanks ++ (written ++ rest) ∧
      Written depth v written := by
  induction depth using Nat.strong_induction_on generalizing cs v rest with
  | _ depth ih =>
    obtain ⟨blanks, hBlanks, hCs⟩ := exists_blanks cs
    -- blanks come off once, so that each case starts at the first character of a value
    suffices hWritten : ∃ written, skipBlanks cs = written ++ rest ∧ Written depth v written by
      obtain ⟨written, hSkipped, hWritten⟩ := hWritten
      exact ⟨blanks, written, hBlanks, hSkipped ▸ hCs, hWritten⟩
    have hRead := readAs_of_value h
    generalize skipBlanks cs = start at hRead
    cases hRead with
    | null hWord =>
      rw [word_eq_ok_iff.mp hWord]
      exact ⟨['n', 'u', 'l', 'l'], by simp, .atom .null⟩
    | true hWord =>
      rw [word_eq_ok_iff.mp hWord]
      exact ⟨['t', 'r', 'u', 'e'], by simp, .atom .true⟩
    | false hWord =>
      rw [word_eq_ok_iff.mp hWord]
      exact ⟨['f', 'a', 'l', 's', 'e'], by simp, .atom .false⟩
    | string hText =>
      obtain ⟨quoted, rfl, hQuoted⟩ := exists_token_of_text hText
      exact ⟨'"' :: quoted, by simp, .atom (.string (by simpa using hQuoted []))⟩
    | number _ hNumber =>
      obtain ⟨token, hToken, -, hNumeral⟩ := takesNumeral_number hNumber
      refine ⟨token, hToken, .atom (.number ?_)⟩
      simpa using hNumeral [] endsNumber_nil
    | array hDepth hItems =>
      subst hDepth
      obtain ⟨items, body, rfl, rfl, hBody⟩ :=
        between_of_listStep (fun h => ih _ (Nat.lt_succ_self _) h) hItems
      exact ⟨'[' :: (body ++ [']']), by simp, .inr (.array hBody)⟩
    | object hDepth hMembers =>
      subst hDepth
      obtain ⟨members, body, rfl, rfl, hBody⟩ :=
        between_of_objectStep (fun h => ih _ (Nat.lt_succ_self _) h) hMembers
      exact ⟨'\x7b' :: (body ++ ['\x7d']), by simp, .inr (.object hBody)⟩

-- ---------------------------------------------------------------------------
-- What is written is read
-- ---------------------------------------------------------------------------

/-- After an item comes nothing that could go on with a number. -/
theorem Between.endsNumber {α : Type} {P : α → List Char → Prop} {vs : List α} {body : List Char}
    (h : Between P true vs body) (hClose : isNumeral c = false) (rest : List Char) :
    EndsNumber (body ++ c :: rest) := by
  cases h with
  | done hBlanks => exact endsNumber_blanks hBlanks (.cons hClose rest)
  | later hBefore =>
    rw [List.append_assoc]
    exact endsNumber_blanks hBefore (.cons rfl _)

/-- The first item comes after blanks. -/
theorem nextItem_first (hBlanks : Blank blanks) (hFirst : isBlank c = false) (hOpen : c ≠ ']') :
    nextItem true (blanks ++ c :: rest) = .ok (.inl (c :: rest)) := by
  rw [nextItem, skipBlanks_append hBlanks, skipBlanks_cons hFirst]
  split <;> simp_all

/-- Any other comes after a comma, with blanks before it and behind. -/
theorem nextItem_comma {before : List Char} (hBefore : Blank before) :
    nextItem false (before ++ ',' :: cs) =
      match skipBlanks cs with
      | [] => .error (.on .endInValue [])
      | ']' :: rest => .error (.on .trailingComma (']' :: rest))
      | rest => .ok (.inl rest) := by
  rw [nextItem, skipBlanks_append hBefore]
  rfl

theorem nextItem_later {before after : List Char} (hBefore : Blank before) (hAfter : Blank after)
    (hFirst : isBlank c = false) (hOpen : c ≠ ']') :
    nextItem false (before ++ ',' :: (after ++ c :: rest)) = .ok (.inl (c :: rest)) := by
  rw [nextItem_comma hBefore, skipBlanks_append hAfter, skipBlanks_cons hFirst]
  split <;> simp_all

theorem nextItem_close (later : Bool) (hBlanks : Blank blanks) :
    nextItem later (blanks ++ ']' :: rest) = .ok (.inr rest) := by
  rw [nextItem, skipBlanks_append hBlanks]
  rfl

/-- The first key comes after blanks. -/
theorem nextKey_first (hBlanks : Blank blanks) :
    nextKey true (blanks ++ '"' :: rest) = .ok (.inl rest) := by
  rw [nextKey, skipBlanks_append hBlanks]
  rfl

/-- Any other comes after a comma, with blanks before it and behind. -/
theorem nextKey_comma {before : List Char} (hBefore : Blank before) :
    nextKey false (before ++ ',' :: cs) =
      match skipBlanks cs with
      | [] => .error (.on .endInValue [])
      | '"' :: rest => .ok (.inl rest)
      | '\x7d' :: rest => .error (.on .trailingComma ('\x7d' :: rest))
      | rest => .error (.on .keyNotString rest) := by
  rw [nextKey, skipBlanks_append hBefore]
  rfl

theorem nextKey_later {before after : List Char} (hBefore : Blank before) (hAfter : Blank after) :
    nextKey false (before ++ ',' :: (after ++ '"' :: rest)) = .ok (.inl rest) := by
  rw [nextKey_comma hBefore, skipBlanks_append hAfter]
  rfl

theorem nextKey_close (later : Bool) (hBlanks : Blank blanks) :
    nextKey later (blanks ++ '\x7d' :: rest) = .ok (.inr rest) := by
  rw [nextKey, skipBlanks_append hBlanks]
  rfl

section Complete

variable {α : Type} {item : List Char → Except Fault (α × List Char)}
  {P : α → List Char → Prop}

/-- An item that is found and read is a step of the list. -/
theorem listStep_of_next {read : List α} {after : List Char} {v : α}
    (hNext : nextItem read.isEmpty cs = .ok (.inl after)) (hValue : item after = .ok (v, rest)) :
    listStep item read cs = .ok (.more (v :: read) rest) := by
  rw [listStep, hNext, ok_bind]
  show (item after >>= _) = _
  rw [hValue]
  rfl

/-- A member that is found and read is a step of the object. -/
theorem objectStep_of_next {read : List (String × α)} {after after₁ after₂ : List Char}
    {key : String} {v : α} (hNext : nextKey read.isEmpty cs = .ok (.inl after))
    (hText : text after = .ok (key, after₁)) (hColon : colon after₁ = .ok after₂)
    (hValue : item after₂ = .ok (v, rest)) :
    objectStep item read cs = .ok (.more ((key, v) :: read) rest) := by
  rw [objectStep, hNext, ok_bind]
  show (text after >>= _) = _
  rw [hText, ok_bind]
  show (colon after₁ >>= _) = _
  rw [hColon, ok_bind, hValue]
  rfl

variable (hItem : ∀ {v blanks written rest}, Blank blanks → P v written → EndsNumber rest →
  item (blanks ++ (written ++ rest)) = .ok (v, rest))
include hItem

/-- **Lists** that are written as the grammar says are read, by induction on their items. -/
theorem scans_listStep_of_between
    (hFirst : ∀ {v written}, P v written →
      ∃ c rest, written = c :: rest ∧ isBlank c = false ∧ c ≠ ']')
    {later : Bool} {vs : List α} {body : List Char} (h : Between P later vs body) (read : List α)
    (hLater : (!read.isEmpty) = later) (rest : List Char) :
    Scans (listStep item) read (body ++ ']' :: rest) (read.reverse ++ vs) rest := by
  induction h generalizing read with
  | done hBlanks =>
    refine .done ?_
    rw [listStep, nextItem_close _ hBlanks, List.append_nil]
    rfl
  -- an item ends its numbers because a comma or the bracket comes next
  | @first v vs blanks written body hBlanks hWritten hRest ih =>
    have hItems := ih (v :: read) rfl
    rw [List.reverse_cons, List.append_assoc] at hItems
    have hRead := hItem blank_nil hWritten (hRest.endsNumber (c := ']') rfl rest)
    obtain ⟨c, written, rfl, hBlank, hOpen⟩ := hFirst hWritten
    have hEmpty : read.isEmpty = true := by simpa using hLater
    refine .more (listStep_of_next ?_ hRead) hItems
    rw [hEmpty, List.append_assoc, List.append_assoc]
    exact nextItem_first hBlanks hBlank hOpen
  | @later v vs before after written body hBefore hAfter hWritten hRest ih =>
    have hItems := ih (v :: read) rfl
    rw [List.reverse_cons, List.append_assoc] at hItems
    have hRead := hItem blank_nil hWritten (hRest.endsNumber (c := ']') rfl rest)
    obtain ⟨c, written, rfl, hBlank, hOpen⟩ := hFirst hWritten
    have hMore : read.isEmpty = false := by simpa using hLater
    refine .more (listStep_of_next ?_ hRead) hItems
    rw [hMore, List.append_assoc, List.cons_append, List.append_assoc, List.append_assoc]
    exact nextItem_later hBefore hAfter hBlank hOpen

/-- A member is read once its key has been come to. -/
theorem objectStep_of_member {read : List (String × α)} {e : String × α} {member : List Char}
    (hMember : Member P e member) (hRest : EndsNumber rest)
    (hNext : ∀ after, member ++ rest = '"' :: after →
      nextKey read.isEmpty cs = .ok (.inl after)) :
    objectStep item read cs = .ok (.more (e :: read) rest) := by
  obtain @⟨key, v, quoted, before, after, written, hKey, hBefore, hAfter, hWritten⟩ := hMember
  have hSplit : '"' :: (quoted ++ (before ++ ':' :: (after ++ written))) ++ rest =
      '"' :: (quoted ++ (before ++ ':' :: (after ++ (written ++ rest)))) := by simp
  -- blanks may stand on both sides of the colon
  have hColon : colon (before ++ ':' :: (after ++ (written ++ rest))) =
      .ok (after ++ (written ++ rest)) := by
    rw [colon_eq_ok_iff, skipBlanks_append hBefore]
    exact skipBlanks_cons rfl
  have hValue := hItem hAfter hWritten hRest
  exact objectStep_of_next (hNext _ hSplit) (text_append hKey _) hColon hValue

/-- **Objects** that are written as the grammar says are read, by induction on their members. -/
theorem scans_objectStep_of_between {later : Bool} {es : List (String × α)} {body : List Char}
    (h : Between (Member P) later es body) (read : List (String × α))
    (hLater : (!read.isEmpty) = later) (rest : List Char) :
    Scans (objectStep item) read (body ++ '\x7d' :: rest) (read.reverse ++ es) rest := by
  induction h generalizing read with
  | done hBlanks =>
    refine .done ?_
    rw [objectStep, nextKey_close _ hBlanks, List.append_nil]
    rfl
  | @first e es blanks member body hBlanks hMember hRest ih =>
    have hMembers := ih (e :: read) rfl
    rw [List.reverse_cons, List.append_assoc] at hMembers
    have hEmpty : read.isEmpty = true := by simpa using hLater
    -- the value of a member ends its numbers, whichever mark comes behind it
    have hEnds := hRest.endsNumber (c := '\x7d') rfl rest
    refine .more (objectStep_of_member hItem hMember hEnds fun after hTaken => ?_) hMembers
    rw [hEmpty, List.append_assoc, List.append_assoc, hTaken]
    exact nextKey_first hBlanks
  | @later e es before after member body hBefore hAfter hMember hRest ih =>
    have hMembers := ih (e :: read) rfl
    rw [List.reverse_cons, List.append_assoc] at hMembers
    have hMore : read.isEmpty = false := by simpa using hLater
    have hEnds := hRest.endsNumber (c := '\x7d') rfl rest
    refine .more (objectStep_of_member hItem hMember hEnds fun after hTaken => ?_) hMembers
    rw [hMore, List.append_assoc, List.cons_append, List.append_assoc, List.append_assoc, hTaken]
    exact nextKey_later hBefore hAfter

end Complete

/-- Blanks before a value are skipped. -/
theorem value_of_blanks (depth : Nat) (hBlanks : Blank blanks) :
    value depth (blanks ++ cs) = value depth cs := by
  unfold value
  rw [skipBlanks_append hBlanks]

/-- A number starts with a digit or a minus. -/
theorem number_first {n : Number} (h : Reader.number (c :: cs) = .ok (n, rest)) :
    c = '-' ∨ c.isDigit = true := by
  by_contra hNot
  obtain ⟨hMinus, hDigit⟩ := not_or.mp hNot
  rw [Reader.number] at h
  · unfold unsigned at h
    split at h <;> simp_all
  · rintro rest ⟨⟩
    exact hMinus rfl

theorem isNumeral_of_first (h : c = '-' ∨ c.isDigit = true) : isNumeral c = true := by
  rcases h with rfl | hDigit
  · rfl
  · exact isNumeral_of_isDigit hDigit

/-- A number is told by its first character. -/
theorem value_number (depth : Nat) (hFirst : c = '-' ∨ c.isDigit = true) :
    value depth (c :: cs) = (Reader.number (c :: cs)).map fun r => (.number r.1, r.2) := by
  unfold value
  rw [skipBlanks_cons (isBlank_of_isNumeral (isNumeral_of_first hFirst))]
  split
  case h_1 hCs => cases hCs
  -- every other first character is neither a digit nor a minus
  case h_8 hCs =>
    cases hCs
    rw [if_pos (by simpa using hFirst)]
    cases Reader.number (c :: cs) <;> rfl
  all_goals
    rename_i hCs
    cases hCs
    exact absurd hFirst (by decide)

/-- Values that are neither lists nor objects are read as the grammar says, if what comes behind
does not go on with a number. -/
theorem Atom.value_eq {v : Json} {written : List Char} (h : Atom v written)
    (hRest : EndsNumber rest) (depth : Nat) : value depth (written ++ rest) = .ok (v, rest) := by
  cases h with
  | null | true | false =>
    rw [value]
    rfl
  | @string quoted s hText =>
    rw [value]
    show (text (quoted ++ rest) >>= _) = _
    rw [text_append hText]
    rfl
  | number hNumber =>
    -- a number is told by its first character, so it must have one
    cases written with
    | nil => cases hNumber
    | cons c written =>
      have hRead := number_append hNumber hRest
      rw [List.cons_append] at hRead ⊢
      rw [value_number depth (number_first hNumber), hRead]
      rfl

/-- What is written for a value begins with it. -/
theorem first_of_atom {v : Json} {written : List Char} (h : Atom v written) :
    ∃ c rest, written = c :: rest ∧ isBlank c = false ∧ c ≠ ']' := by
  cases h with
  | null | true | false | string => exact ⟨_, _, rfl, rfl, by decide⟩
  | number hNumber =>
    cases written with
    | nil => cases hNumber
    | cons c written =>
      have hNumeral := isNumeral_of_first (number_first hNumber)
      refine ⟨c, written, rfl, isBlank_of_isNumeral hNumeral, ?_⟩
      rintro rfl
      cases hNumeral

/-- What is written of a value starts with no blank, nor with a bracket that ends a list. -/
theorem Written.first {depth : Nat} {v : Json} {written : List Char}
    (h : Written depth v written) :
    ∃ c rest, written = c :: rest ∧ isBlank c = false ∧ c ≠ ']' := by
  cases depth with
  | zero => exact first_of_atom h
  | succ depth =>
    rcases h with h | h
    · exact first_of_atom h
    · cases h <;> exact ⟨_, _, rfl, rfl, by decide⟩

/-- What is written for a value is read, up to what does not go on with it. -/
theorem value_of_written {depth : Nat} {v : Json} {written : List Char} (hBlanks : Blank blanks)
    (h : Written depth v written) (hRest : EndsNumber rest) :
    value depth (blanks ++ (written ++ rest)) = .ok (v, rest) := by
  rw [value_of_blanks depth hBlanks]
  induction depth generalizing blanks v written rest with
  | zero => exact Atom.value_eq h hRest 0
  | succ depth ih =>
    -- one level below, blanks may stand in front of a value
    have hItem : ∀ {v blanks written rest}, Blank blanks → Written depth v written →
        EndsNumber rest → value depth (blanks ++ (written ++ rest)) = .ok (v, rest) := by
      intro v blanks written rest hBlanks hWritten hRest
      rw [value_of_blanks depth hBlanks]
      exact ih hBlanks hWritten hRest
    rcases h with h | h
    · exact h.value_eq hRest _
    · cases h with
      | @array items body hBody =>
        have hScans := scans_listStep_of_between hItem Written.first hBody [] rfl rest
        rw [List.cons_append, List.append_assoc, value]
        show (scan _ _ _ (body ++ ']' :: rest) >>= _) = _
        rw [hScans.scan_eq consumes_listStep]
        rfl
      | @object members body hBody =>
        have hScans := scans_objectStep_of_between hItem hBody [] rfl rest
        rw [List.cons_append, List.append_assoc, value]
        show (scan _ _ _ (body ++ '\x7d' :: rest) >>= _) = _
        rw [hScans.scan_eq consumes_objectStep]
        rfl

-- ---------------------------------------------------------------------------
-- Whole texts
-- ---------------------------------------------------------------------------

/-- A text ends with blanks and nothing else. -/
theorem finish_eq_ok_iff : finish cs = .ok () ↔ Blank cs := by
  rw [← skipBlanks_eq_nil_iff, finish]
  split <;> simp_all

/-- **The grammar.** A text is read with a value if and only if it is written for that value. -/
theorem readRaw_eq_ok_iff {text : String} {v : Json} : readRaw text = .ok v ↔ TextOf text v := by
  rw [readRaw, readAll, mapError_eq_ok_iff, bind_eq_ok_iff]
  constructor
  · rintro ⟨⟨w, after⟩, hValue, h⟩
    obtain ⟨u, hFinish, h⟩ := bind_eq_ok_iff.mp h
    cases h
    obtain ⟨before, written, hBefore, hText, hWritten⟩ := exists_written_of_value hValue
    exact ⟨before, written, after, hText, hBefore, hWritten, finish_eq_ok_iff.mp hFinish⟩
  · rintro ⟨before, written, after, hText, hBefore, hWritten, hAfter⟩
    refine ⟨(v, after), ?_, ?_⟩
    · -- only blanks come behind the value, so a number ends where it should
      have hEnds := endsNumber_blanks hAfter endsNumber_nil
      rw [List.append_nil] at hEnds
      rw [hText]
      exact value_of_written hBefore hWritten hEnds
    · show (finish after >>= _) = _
      rw [finish_eq_ok_iff.mpr hAfter]
      rfl

end FoodScan.Json
