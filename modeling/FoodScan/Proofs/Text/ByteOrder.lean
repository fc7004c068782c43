import Mathlib

/-!
# The order of texts is that of their bytes

Texts are compared by code points, and so are the keys of every map and object. A reader who has
only the UTF-8 bytes of two texts comes to the same result (`lt_iff_utf8Bytes_lt`): the encoding of
a smaller character is smaller at the first byte in which the two differ, and no encoding begins
another one (`utf8EncodeChar_lex`).
-/

namespace FoodScan.Text

/-- The UTF-8 bytes of a text. -/
def utf8Bytes (s : String) : List UInt8 := s.toUTF8.data.toList

/-- The bytes of a text are those of its characters, one after the other. -/
theorem utf8Bytes_eq_flatMap (s : String) :
    utf8Bytes s = s.toList.flatMap String.utf8EncodeChar := by
  rw [utf8Bytes, String.toUTF8_eq_toByteArray, ← String.utf8Encode_toList, List.utf8Encode,
    List.toList_data_toByteArray]

theorem code_lt (c : Char) : c.val.toNat < 0x110000 := by
  rcases c.valid with hLow | ⟨-, hHigh⟩
  · have : c.val.toNat < 0xd800 := hLow
    omega
  · exact hHigh

/-- **Characters.** Whatever follows them, the encodings of two characters are in the order of the
characters. -/
theorem utf8EncodeChar_lex {c d : Char} (h : c < d) (xs ys : List UInt8) :
    List.Lex (· < ·) (String.utf8EncodeChar c ++ xs) (String.utf8EncodeChar d ++ ys) := by
  have hLt : c.val.toNat < d.val.toNat := h
  have hBound := code_lt d
  unfold String.utf8EncodeChar
  generalize c.val.toNat = v at hLt ⊢
  generalize d.val.toNat = w at hLt hBound ⊢
  -- the groups of six bits are the remainders of one division by 64 after the other
  have hTwo : ∀ n : Nat, n / 4096 = n / 64 / 64 := fun n => by omega
  have hThree : ∀ n : Nat, n / 262144 = n / 64 / 64 / 64 := fun n => by omega
  dsimp only
  split_ifs <;>
    simp only [List.cons_append, List.nil_append, List.cons_lex_cons_iff, UInt8.lt_iff_toNat_lt,
      ← UInt8.toNat_inj, UInt8.toNat_ofNat', hTwo, hThree] <;>
    omega

/-- The order of characters is that of their bytes, and so it is for lists of them. -/
theorem lex_utf8EncodeChar_of_lex {cs ds : List Char} (h : List.Lex (· < ·) cs ds) :
    List.Lex (· < ·) (cs.flatMap String.utf8EncodeChar) (ds.flatMap String.utf8EncodeChar) := by
  induction h with
  | @nil d ds =>
    obtain ⟨x, xs, hEncoded⟩ := List.exists_cons_of_ne_nil (String.utf8EncodeChar_ne_nil (c := d))
    rw [List.flatMap_cons, hEncoded]
    exact .nil
  | cons _ ih =>
    rw [List.flatMap_cons, List.flatMap_cons]
    exact List.Lex.append_left _ ih _
  | rel hLt =>
    rw [List.flatMap_cons, List.flatMap_cons]
    exact utf8EncodeChar_lex hLt _ _

/-- Of two texts, the smaller one has the smaller bytes. -/
theorem lex_utf8Bytes_of_lt {s t : String} (h : s < t) :
    List.Lex (· < ·) (utf8Bytes s) (utf8Bytes t) := by
  rw [utf8Bytes_eq_flatMap, utf8Bytes_eq_flatMap]
  exact lex_utf8EncodeChar_of_lex (String.lt_iff_toList_lt.mp h)

/-- **The order of texts** is the lexicographic order of their UTF-8 bytes. -/
theorem lt_iff_utf8Bytes_lt {s t : String} :
    s < t ↔ List.Lex (· < ·) (utf8Bytes s) (utf8Bytes t) := by
  refine ⟨lex_utf8Bytes_of_lt, fun h => ?_⟩
  rcases lt_trichotomy s t with hLt | rfl | hGt
  · exact hLt
  · exact absurd h (List.lex_irrefl UInt8.lt_irrefl _)
  · exact absurd (lex_utf8Bytes_of_lt hGt) (List.lex_asymm (fun hxy => UInt8.lt_asymm hxy) h)

end FoodScan.Text
