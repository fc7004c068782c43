import FoodScan.Proofs.Json.Quoted
import FoodScan.Proofs.Settings.Members

/-!
# What is saved reads back

The text of a settings file is a JSON object of three members (`readRaw_render`), and the settings
of that text are those it was written for (`decode_render`), whatever characters a path has.
-/

namespace FoodScan

namespace Json.Reader

open Text

variable {depth : Nat} {read : List (String × Json)} {key : String} {v : Json}
  {cs after rest : List Char}

-- ---------------------------------------------------------------------------
-- Values after a blank
-- ---------------------------------------------------------------------------

theorem value_null (depth : Nat) (rest : List Char) :
    value depth (' ' :: (Json.null.chars ++ rest)) = .ok (.null, rest) := by
  rw [value]
  rfl

theorem value_bool (depth : Nat) (b : Bool) (rest : List Char) :
    value depth (' ' :: ((Json.bool b).chars ++ rest)) = .ok (.bool b, rest) := by
  rw [value]
  cases b <;> rfl

theorem value_string (depth : Nat) (s : String) (rest : List Char) :
    value depth (' ' :: ((Json.string s).chars ++ rest)) = .ok (.string s, rest) := by
  obtain ⟨hQuoted, hText⟩ := text_quoteChars s rest
  rw [chars, hQuoted, value]
  show (text _ >>= _) = _
  rw [hText]
  rfl

end Json.Reader

namespace Settings

open Json Json.Reader Text

/-- The members of a settings file. -/
def members (s : Settings) : List (String × Json) :=
  [("schema_path", s.schemaPathJson), ("recursive", .bool s.recursive), ("color", .bool s.color)]

/-- The path of the schema is read back, be it a text or `null`. -/
theorem value_schemaPathJson (s : Settings) (depth : Nat) (rest : List Char) :
    value depth (' ' :: (s.schemaPathJson.chars ++ rest)) = .ok (s.schemaPathJson, rest) := by
  rw [schemaPathJson]
  split
  · exact value_string depth _ rest
  · exact value_null depth rest

/-- A line of the file up to its value. -/
def keyChars (key : String) : List Char := '\n' :: ' ' :: ' ' :: (quoteChars key ++ [':', ' '])

/-- The file after its opening brace. -/
def memberLines (s : Settings) : List Char :=
  keyChars "schema_path" ++ (s.schemaPathJson.chars ++
    ',' :: (keyChars "recursive" ++ ((Json.bool s.recursive).chars ++
      ',' :: (keyChars "color" ++ ((Json.bool s.color).chars ++ ['\n', '\x7d'])))))

/-- Settings are written as an object with one line for each member. -/
theorem toList_render (s : Settings) : s.render.toList = '\x7b' :: s.memberLines := by
  have hSchemaPath : "\x7b\n  \"schema_path\": ".toList = '\x7b' :: keyChars "schema_path" := by
    simp [keyChars, quoteChars, escapeChar]
  have hRecursive : ",\n  \"recursive\": ".toList = ',' :: keyChars "recursive" := by
    simp [keyChars, quoteChars, escapeChar]
  have hColor : ",\n  \"color\": ".toList = ',' :: keyChars "color" := by
    simp [keyChars, quoteChars, escapeChar]
  have hEnd : "\n\x7d".toList = ['\n', '\x7d'] := by simp
  unfold Settings.render
  simp only [Json.render, String.toList_append, String.toList_ofList, List.append_assoc,
    List.cons_append, hSchemaPath, hRecursive, hColor, hEnd, memberLines]

/-- A line is read as a member if its value is, at first or after a comma. -/
theorem objectStep_keyChars (read : List (String × Json)) (before : List Char) {depth : Nat}
    {key : String} {v : Json} {written rest : List Char}
    (hNext : ∀ cs, nextKey read.isEmpty (before ++ '\n' :: ' ' :: ' ' :: '"' :: cs) = .ok (.inl cs))
    (hValue : value depth (' ' :: (written ++ rest)) = .ok (v, rest)) :
    objectStep (value depth) read (before ++ (keyChars key ++ (written ++ rest))) =
      .ok (.more ((key, v) :: read) rest) := by
  obtain ⟨hQuoted, hText⟩ := text_quoteChars key (':' :: ' ' :: (written ++ rest))
  have hChars : keyChars key ++ (written ++ rest) =
      '\n' :: ' ' :: ' ' :: (quoteChars key ++ ':' :: ' ' :: (written ++ rest)) := by
    simp [keyChars]
  rw [hChars, hQuoted, objectStep, hNext, ok_bind]
  dsimp only
  rw [hText, ok_bind]
  show (value depth (' ' :: (written ++ rest)) >>= _) = _
  rw [hValue]
  rfl

/-- The lines are read as the members, one step each. -/
theorem scans_memberLines (s : Settings) (depth : Nat) :
    Scans (objectStep (value depth)) [] s.memberLines s.members [] := by
  rw [memberLines]
  refine .more (objectStep_keyChars [] [] (fun _ => rfl) (value_schemaPathJson s _ _)) ?_
  refine .more (objectStep_keyChars _ [','] (fun _ => rfl) (value_bool _ s.recursive _)) ?_
  refine .more (objectStep_keyChars _ [','] (fun _ => rfl) (value_bool _ s.color _)) ?_
  exact .done rfl

/-- **The file.** Settings are written as the object of their members. -/
theorem readRaw_render (s : Settings) : readRaw s.render = .ok (.object s.members) := by
  have hScan := (scans_memberLines s 126).scan_eq consumes_objectStep
    (.error (.on .endInObject []))
  rw [readRaw, readAll, mapError_eq_ok_iff, toList_render, bind_eq_ok_iff]
  refine ⟨(.object s.members, []), ?_, rfl⟩
  rw [value]
  show (scan _ _ _ _ >>= _) = _
  rw [hScan]
  rfl

/-- The members give back the settings they were written for. -/
theorem gives_members (s : Settings) : Gives s.members s := by
  constructor <;> right <;> rfl

/-- Settings are read back from what they are written as. -/
theorem decode_render (s : Settings) : decode s.render = .ok s :=
  (decode_eq_ok_iff (readRaw_render s)).mpr (gives_members s)

end Settings

end FoodScan
