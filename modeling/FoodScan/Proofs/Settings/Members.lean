import FoodScan.Proofs.Json.Skipping
import FoodScan.Settings

/-!
# What a JSON object gives for settings

A settings file is read setting by setting and not as a JSON value: what is unknown is passed over.
Where the text is a JSON object, that comes to the same as looking at its members: `Gives` says
which settings members give, and `decode_eq_ok_iff` that they are the settings of the text.
-/

namespace FoodScan.Settings

open Json Json.Reader Text

/-- The values of a key, in their order. -/
def valuesOf (key : String) (members : List (String × Json)) : List Json :=
  (members.filter fun e => e.1 = key).map Prod.snd

theorem valuesOf_cons (key key' : String) (v : Json) (members : List (String × Json)) :
    valuesOf key ((key', v) :: members) =
      if key' = key then v :: valuesOf key members else valuesOf key members := by
  rw [valuesOf, List.filter_cons]
  split <;> simp_all [valuesOf]

/-- **What members give.** A setting may be missing, which gives its default; else it is given once
and by a value of its type. No other members count, nor does the order of the members. -/
structure Gives (members : List (String × Json)) (s : Settings) : Prop where
  schemaPath : valuesOf "schema_path" members = [] ∧ s.schemaPath = none ∨
    valuesOf "schema_path" members = [s.schemaPathJson]
  recursive : valuesOf "recursive" members = [] ∧ s.recursive = false ∨
    valuesOf "recursive" members = [.bool s.recursive]
  color : valuesOf "color" members = [] ∧ s.color = true ∨
    valuesOf "color" members = [.bool s.color]

-- ---------------------------------------------------------------------------
-- One value
-- ---------------------------------------------------------------------------

variable {cs rest rest' : List Char} {depth : Nat} {v : Json}

/-- The path that a value gives: text gives one, null gives none. -/
def pathOf? : Json → Option (Option String)
  | .null => some none
  | .string path => some (some path)
  | _ => none

theorem toBool?_eq_some_iff {b : Bool} : v.toBool? = some b ↔ v = .bool b := by
  cases v <;> simp [Json.toBool?]

/-- A truth value is read where the value is one. -/
theorem readBool_eq_ok_iff (h : value depth cs = .ok (v, rest)) {b : Bool} :
    readBool cs = .ok (b, rest') ↔ v.toBool? = some b ∧ rest = rest' := by
  have hRead := readAs_of_value h
  rw [readBool, toBool?_eq_some_iff]
  -- both readers look at the first character only, so the cases are those of the value
  generalize skipBlanks cs = start at hRead
  cases hRead with
  | null hWord => simp
  | true hWord =>
    show (word "rue".toList _ >>= _) = _ ↔ _
    rw [hWord, ok_bind]
    simp [pure, Except.pure]
  | false hWord =>
    show (word "alse".toList _ >>= _) = _ ↔ _
    rw [hWord, ok_bind]
    simp [pure, Except.pure]
  | string hText => simp
  | array hDepth hItems => simp
  | object hDepth hMembers => simp
  | number hFirst hNumber => split <;> simp_all

/-- A path is read where the value is text or null. -/
theorem readPath_eq_ok_iff (h : value depth cs = .ok (v, rest)) {path? : Option String} :
    readPath cs = .ok (path?, rest') ↔ pathOf? v = some path? ∧ rest = rest' := by
  have hRead := readAs_of_value h
  rw [readPath]
  -- as for booleans, with `null` and texts to be read
  generalize skipBlanks cs = start at hRead
  cases hRead with
  | null hWord =>
    show (word "ull".toList _ >>= _) = _ ↔ _
    rw [hWord, ok_bind]
    simp [pathOf?, pure, Except.pure]
  | true hWord => simp [pathOf?]
  | false hWord => simp [pathOf?]
  | string hText =>
    show (text _ >>= _) = _ ↔ _
    rw [hText, ok_bind]
    simp [pathOf?, pure, Except.pure]
  | array hDepth hItems => simp [pathOf?]
  | object hDepth hMembers => simp [pathOf?]
  | number hFirst hNumber => split <;> simp_all [pathOf?]

-- ---------------------------------------------------------------------------
-- One member
-- ---------------------------------------------------------------------------

section Once

variable {α : Type} {read : Json → Option α}

/-- What a value gives for a setting that is not given yet. -/
def once (read : Json → Option α) (given : Option α) (v : Json) : Option (Option α) :=
  if given.isSome then none else (read v).map some

/-- Only one value may give a setting. -/
theorem foldlM_once_eq_some_iff {values : List Json} {given : Option α} :
    values.foldlM (once read) none = some given ↔
      values = [] ∧ given = none ∨ ∃ v a, values = [v] ∧ read v = some a ∧ given = some a := by
  have hAgain : ∀ {a : α} {values : List Json},
      values.foldlM (once read) (some a) = some given ↔ values = [] ∧ given = some a := by
    intro a values
    cases values <;> simp [once, eq_comm]
  cases values with
  | nil => simp [eq_comm]
  | cons v values =>
    rw [List.foldlM_cons, once, if_neg (by simp)]
    cases hRead : read v with
    | none => simp [hRead]
    | some a =>
      show values.foldlM (once read) (some a) = some given ↔ _
      rw [hAgain]
      simp [hRead]

end Once

/-- What is given after one more member. -/
def Given.take (p : Given) (member : String × Json) : Option Given :=
  match member.1 with
  | "schema_path" =>
    (once pathOf? p.schemaPath member.2).map fun path => { p with schemaPath := path }
  | "recursive" => (once Json.toBool? p.recursive member.2).map fun b => { p with recursive := b }
  | "color" => (once Json.toBool? p.color member.2).map fun b => { p with color := b }
  | _ => some p

/-- A setting that is not given yet is read for what its value gives. -/
theorem read_once_eq_ok_iff {α : Type} {given : Option α} {p' : Given}
    {reader : List Char → Except Fault (α × List Char)} {read : Json → Option α}
    {fault : Fault} {after : List Char} (put : Option α → Given) (hColon : colon cs = .ok after)
    (hRead : ∀ a rest', reader after = .ok (a, rest') ↔ read v = some a ∧ rest = rest') :
    (if given.isSome then .error fault
      else do
        let r ← reader (← colon cs)
        return (put (some r.1), r.2)) = Except.ok (p', rest') ↔
      (once read given v).map put = some p' ∧ rest = rest' := by
  rw [once]
  -- a setting that was given already is refused before its value is looked at
  split
  · simp
  · rw [hColon, ok_bind, bind_eq_ok_iff]
    constructor
    · rintro ⟨⟨a, rest''⟩, hReader, hPut⟩
      obtain ⟨hValue, rfl⟩ := (hRead a rest'').mp hReader
      cases hPut
      rw [hValue]
      exact ⟨rfl, rfl⟩
    · rintro ⟨hPut, rfl⟩
      rw [Option.map_map, Option.map_eq_some_iff] at hPut
      obtain ⟨a, hValue, rfl⟩ := hPut
      exact ⟨(a, rest), (hRead a rest).mpr ⟨hValue, rfl⟩, rfl⟩

/-- A member is read for what it gives. -/
theorem readSetting_eq_ok_iff {p p' : Given} {key : String} {after : List Char}
    (hColon : colon cs = .ok after) (h : value depth after = .ok (v, rest)) :
    readSetting p key cs = .ok (p', rest') ↔ p.take (key, v) = some p' ∧ rest = rest' := by
  unfold readSetting Given.take
  split
  · exact read_once_eq_ok_iff (fun path => { p with schemaPath := path }) hColon
      fun _ _ => readPath_eq_ok_iff h
  · exact read_once_eq_ok_iff (fun b => { p with recursive := b }) hColon
      fun _ _ => readBool_eq_ok_iff h
  · exact read_once_eq_ok_iff (fun b => { p with color := b }) hColon
      fun _ _ => readBool_eq_ok_iff h
  · rw [hColon, ok_bind, skipValue_of_value h, ok_bind]
    simp [pure, Except.pure]

/-- Each setting is given by the values of its key. -/
theorem foldlM_take_eq_some_iff {members : List (String × Json)} {p p' : Given} :
    members.foldlM Given.take p = some p' ↔
      (valuesOf "schema_path" members).foldlM (once pathOf?) p.schemaPath = some p'.schemaPath ∧
      (valuesOf "recursive" members).foldlM (once Json.toBool?) p.recursive = some p'.recursive ∧
      (valuesOf "color" members).foldlM (once Json.toBool?) p.color = some p'.color := by
  induction members generalizing p with
  | nil =>
    cases p
    cases p'
    simp [valuesOf]
  | cons member members ih =>
    obtain ⟨key, v⟩ := member
    rw [List.foldlM_cons]
    -- a member belongs to one of the three settings or to none, and leaves the others alone
    generalize hTake : p.take (key, v) = next
    unfold Given.take at hTake
    split at hTake
    all_goals subst hTake
    · cases hOnce : once pathOf? p.schemaPath v <;> simp_all [valuesOf_cons]
    · cases hOnce : once Json.toBool? p.recursive v <;> simp_all [valuesOf_cons]
    · cases hOnce : once Json.toBool? p.color v <;> simp_all [valuesOf_cons]
    · simp_all [valuesOf_cons]

/-- A setting is given by a list of values, or missing: what it is then. -/
theorem exists_once_iff {α β : Type} {read : Json → Option α} {values : List Json} {a : β}
    {complete : Option α → β} {json : Json}
    (hRead : ∀ v, (read v).map (fun x => complete (some x)) = some a ↔ v = json) :
    (∃ given, values.foldlM (once read) none = some given ∧ complete given = a) ↔
      values = [] ∧ a = complete none ∨ values = [json] := by
  simp only [foldlM_once_eq_some_iff]
  constructor
  · rintro ⟨given, ⟨rfl, rfl⟩ | ⟨v, x, rfl, hValue, rfl⟩, hComplete⟩
    · exact .inl ⟨rfl, hComplete.symm⟩
    · rw [(hRead v).mp (by rw [hValue, Option.map_some, hComplete])]
      exact .inr rfl
  · rintro (⟨rfl, rfl⟩ | rfl)
    · exact ⟨none, .inl ⟨rfl, rfl⟩, rfl⟩
    · obtain ⟨x, hValue, hComplete⟩ := Option.map_eq_some_iff.mp ((hRead json).mpr rfl)
      exact ⟨some x, .inr ⟨json, x, rfl, hValue, rfl⟩, hComplete⟩

/-- The members give settings exactly if taking them one by one does. -/
theorem gives_iff {members : List (String × Json)} {s : Settings} :
    Gives members s ↔ ∃ p, members.foldlM Given.take {} = some p ∧ p.complete = s := by
  have hPath : (∃ given, (valuesOf "schema_path" members).foldlM (once pathOf?) none = some given ∧
        given.getD none = s.schemaPath) ↔
      valuesOf "schema_path" members = [] ∧ s.schemaPath = none ∨
        valuesOf "schema_path" members = [s.schemaPathJson] :=
    exists_once_iff fun v => by
      cases v <;> cases hPath : s.schemaPath <;> simp [pathOf?, schemaPathJson, hPath]
  have hBool : ∀ (key : String) (b missing : Bool),
      (∃ given, (valuesOf key members).foldlM (once Json.toBool?) none = some given ∧
        given.getD missing = b) ↔
        valuesOf key members = [] ∧ b = missing ∨ valuesOf key members = [.bool b] :=
    fun key b missing => exists_once_iff fun v => by
      cases v <;> simp [Json.toBool?]
  -- the settings are given part by part, and each part by the members of its key
  have hParts : Gives members s ↔ _ ∧ _ ∧ _ :=
    ⟨fun h => ⟨h.schemaPath, h.recursive, h.color⟩, fun h => ⟨h.1, h.2.1, h.2.2⟩⟩
  rw [hParts, ← hPath, ← hBool, ← hBool]
  simp only [foldlM_take_eq_some_iff]
  constructor
  · rintro ⟨⟨path, hPathGiven, hPath'⟩, ⟨recursive, hRecursive, hRecursive'⟩, color, hColor,
      hColor'⟩
    refine ⟨⟨path, recursive, color⟩, ⟨hPathGiven, hRecursive, hColor⟩, ?_⟩
    rw [Given.complete, hPath', hRecursive', hColor']
  · rintro ⟨p, ⟨hPathGiven, hRecursive, hColor⟩, rfl⟩
    exact ⟨⟨_, hPathGiven, rfl⟩, ⟨_, hRecursive, rfl⟩, _, hColor, rfl⟩

-- ---------------------------------------------------------------------------
-- All members
-- ---------------------------------------------------------------------------

/-- Reading settings goes along with reading members. -/
theorem scans_settingStep_iff {read members : List (String × Json)}
    (h : Scans (objectStep (value depth)) read cs members rest) :
    ∃ new, members = read.reverse ++ new ∧ ∀ p s rest',
      Scans settingStep (p, read.isEmpty) cs s rest' ↔
        ∃ p', new.foldlM Given.take p = some p' ∧ p'.complete = s ∧ rest = rest' := by
  induction h with
  | @done read cs members rest h =>
    obtain ⟨hNext, rfl⟩ := objectStep_eq_done h
    refine ⟨[], (List.append_nil _).symm, fun p s rest' => ?_⟩
    have hStep : settingStep (p, read.isEmpty) cs = .ok (.done p.complete rest) := by
      rw [settingStep, hNext]
      rfl
    -- at the end of the object the settings are complete
    rw [scans_iff, hStep]
    simp [Ends]
  | @more read read' cs cs' members rest h _ ih =>
    obtain ⟨after, key, after₁, after₂, v, hNext, hText, hColon, hValue, rfl⟩ :=
      objectStep_eq_more h
    obtain ⟨new, hMembers, hRest⟩ := ih
    refine ⟨(key, v) :: new, by simpa using hMembers, fun p s rest' => ?_⟩
    have hStep : settingStep (p, read.isEmpty) cs =
        (readSetting p key after₁ >>= fun r => .ok (.more (r.1, false) r.2)) := by
      rw [settingStep, hNext, ok_bind]
      dsimp only
      rw [hText, ok_bind]
      rfl
    rw [scans_iff, hStep, List.foldlM_cons]
    constructor
    · rintro ⟨_, hOk, hEnds⟩
      obtain ⟨⟨p₁, cs₁⟩, hSetting, hOk⟩ := bind_eq_ok_iff.mp hOk
      cases hOk
      obtain ⟨hTake, rfl⟩ := (readSetting_eq_ok_iff hColon hValue).mp hSetting
      rw [hTake]
      exact (hRest p₁ s rest').mp hEnds
    · rintro ⟨p', hTake, hFinal⟩
      obtain ⟨p₁, hTake, hFold⟩ := Option.bind_eq_some_iff.mp hTake
      refine ⟨.more (p₁, false) cs', ?_, (hRest p₁ s rest').mpr ⟨p', hFold, hFinal⟩⟩
      rw [(readSetting_eq_ok_iff hColon hValue).mpr ⟨hTake, rfl⟩]
      rfl

theorem length_readBool {b : Bool} (h : readBool cs = .ok (b, rest)) :
    rest.length < cs.length := by
  rw [readBool] at h
  split at h
  case h_2 | h_3 =>
    rename_i after hCs
    obtain ⟨_, hWord, h⟩ := bind_eq_ok_iff.mp h
    cases h
    exact lt_of_le_of_lt (length_word hWord) (length_of_skipBlanks_eq_cons hCs)
  all_goals cases h

theorem length_readPath {path? : Option String} (h : readPath cs = .ok (path?, rest)) :
    rest.length < cs.length := by
  rw [readPath] at h
  split at h
  case h_2 =>
    rename_i after hCs
    obtain ⟨_, hWord, h⟩ := bind_eq_ok_iff.mp h
    cases h
    exact lt_of_le_of_lt (length_word hWord) (length_of_skipBlanks_eq_cons hCs)
  case h_3 =>
    rename_i after hCs
    obtain ⟨⟨_, _⟩, hText, h⟩ := bind_eq_ok_iff.mp h
    cases h
    exact lt_trans (length_text hText) (length_of_skipBlanks_eq_cons hCs)
  all_goals cases h

/-- Reading a setting consumes something, whichever reader its key selects. -/
theorem length_readSetting {p p' : Given} {key : String}
    (h : readSetting p key cs = .ok (p', rest)) : rest.length < cs.length := by
  -- after the colon comes a reader that consumes something
  have hAfter : ∀ {α : Type} {reader : List Char → Except Fault (α × List Char)}
      (put : α → Given), (∀ {cs a rest}, reader cs = .ok (a, rest) → rest.length < cs.length) →
      (do
        let r ← reader (← colon cs)
        return (put r.1, r.2)) = Except.ok (p', rest) → rest.length < cs.length := by
    intro α reader put hReader h
    obtain ⟨after, hColon, h⟩ := bind_eq_ok_iff.mp h
    obtain ⟨⟨a, after'⟩, hRead, h⟩ := bind_eq_ok_iff.mp h
    cases h
    exact lt_trans (hReader hRead) (length_colon hColon)
  unfold readSetting at h
  split at h
  case h_4 =>
    obtain ⟨after, hColon, h⟩ := bind_eq_ok_iff.mp h
    obtain ⟨after', hSkip, h⟩ := bind_eq_ok_iff.mp h
    cases h
    exact lt_trans (length_skipValue hSkip) (length_colon hColon)
  all_goals split at h
  case h_1.isFalse =>
    exact hAfter (fun path => { p with schemaPath := some path }) length_readPath h
  case h_2.isFalse => exact hAfter (fun b => { p with recursive := some b }) length_readBool h
  case h_3.isFalse => exact hAfter (fun b => { p with color := some b }) length_readBool h
  all_goals cases h

/-- So every step of the reader does, and it ends. -/
theorem consumes_settingStep : Consumes settingStep := by
  intro state cs p h
  obtain ⟨next, hNext, h⟩ := bind_eq_ok_iff.mp h
  cases next with
  | inr after =>
    cases h
    exact length_of_skipBlanks_eq_cons (nextKey_eq_inr hNext)
  | inl after =>
    obtain ⟨⟨key, after₁⟩, hText, h⟩ := bind_eq_ok_iff.mp h
    obtain ⟨⟨given, after₂⟩, hSetting, h⟩ := bind_eq_ok_iff.mp h
    cases h
    exact lt_trans (length_readSetting hSetting)
      (lt_trans (length_text hText) (length_nextKey hNext))

/-- An object that is read was read by steps, one for each member. -/
theorem value_eq_object {members : List (String × Json)}
    (h : value depth cs = .ok (.object members, rest)) :
    ∃ below after, skipBlanks cs = '\x7b' :: after ∧
      Scans (objectStep (value below)) [] after members rest := by
  have hRead := readAs_of_value h
  generalize skipBlanks cs = start at hRead ⊢
  cases hRead with
  | object hDepth hMembers => exact ⟨_, _, rfl, hMembers⟩

/-- **Settings of an object.** -/
theorem decode_eq_ok_iff {content : String} {members : List (String × Json)} {s : Settings}
    (h : readRaw content = .ok (.object members)) : decode content = .ok s ↔ Gives members s := by
  rw [readRaw, readAll, mapError_eq_ok_iff, bind_eq_ok_iff] at h
  obtain ⟨⟨v, rest⟩, hValue, h⟩ := h
  obtain ⟨_, hFinish, h⟩ := bind_eq_ok_iff.mp h
  cases h
  obtain ⟨below, after, hCs, hScans⟩ := value_eq_object hValue
  obtain ⟨new, hNew, hSettings⟩ := scans_settingStep_iff hScans
  obtain rfl : members = new := hNew
  -- behind its opening brace the text is read member by member, as the object was
  have hRead : readSettings content.toList =
      scan settingStep (.error (.on .endInObject [])) ({}, true) after := by
    rw [readSettings, hCs]
    rfl
  rw [decode, readAll, mapError_eq_ok_iff, hRead, gives_iff, bind_eq_ok_iff]
  constructor
  · rintro ⟨⟨s', rest'⟩, hScan, h⟩
    obtain ⟨_, -, h⟩ := bind_eq_ok_iff.mp h
    cases h
    obtain ⟨p, hTake, hComplete, -⟩ := (hSettings {} s rest').mp (scans_of_scan hScan)
    exact ⟨p, hTake, hComplete⟩
  · rintro ⟨p, hTake, hComplete⟩
    refine ⟨(s, rest), ?_, ?_⟩
    · exact ((hSettings {} s rest).mpr ⟨p, hTake, hComplete, rfl⟩).scan_eq consumes_settingStep _
    · show (finish rest >>= _) = _
      rw [hFinish]
      rfl

end FoodScan.Settings
