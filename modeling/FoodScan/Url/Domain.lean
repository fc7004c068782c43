import FoodScan.Text.GraphemeExtend
import FoodScan.Text.Scan
import FoodScan.Text.Unprintable
import FoodScan.Url.Punycode

/-!
# Domain names

The names of hosts as they may stand in a URL: bytes can be written by percent signs,
letters count in lower case, and wide forms of ASCII characters count as these. A name
can hold characters beyond ASCII, in full or, label by label, in Punycode; it cannot hold
blanks, control characters, or the characters that part a URL.
-/

namespace FoodScan.Url.Domain

open Text

/-- The bytes of text in which a percent sign and two hexadecimal digits stand for one byte. -/
def percentDecoded : List Char → List UInt8
  | [] => []
  | '%' :: high :: low :: rest =>
    match hexValue? high, hexValue? low with
    | some high, some low => UInt8.ofNat (16 * high + low) :: percentDecoded rest
    | _, _ => 0x25 :: percentDecoded (high :: low :: rest)
  | c :: rest => (String.singleton c).toUTF8.toList ++ percentDecoded rest

/-- The ranges of the characters beyond ASCII that are of no effect in a name. -/
def ignoredRanges : List (Nat × Nat) := [
  (0xad, 0xad), (0x34f, 0x34f), (0x180b, 0x180d), (0x180f, 0x180f), (0x200b, 0x200b),
  (0x2060, 0x2060), (0x2064, 0x2064), (0xfe00, 0xfe0f), (0xfeff, 0xfeff), (0x1bca0, 0x1bca3),
  (0xe0100, 0xe01ef)]

/-- A character as it counts in a name. -/
def folded (c : Char) : Char :=
  if '\uff01' ≤ c ∧ c ≤ '\uff5e' then (Char.ofNat (c.toNat - 0xfee0)).toLower
  else if c = '\u3002' ∨ c = '\uff61' then '.'
  else c.toLower

/-- The characters of ASCII that part a URL or stand for bytes. -/
def delimiters : List Char :=
  ['%', '#', '/', ':', '<', '>', '?', '@', '[', '\\', ']', '^', '|']

/-- Whether no name can hold a character. -/
def isRefused (c : Char) : Bool :=
  c ≤ ' ' || delimiters.contains c || isUnprintable c || c == '\ufffd'

/-- Whether Punycode stands for a label that needs it, and for its counted form. -/
def isEncodedLabel (code : List Char) : Bool :=
  match Punycode.decode? code with
  | some [] => false
  | some (c :: rest) =>
    !isGraphemeExtend c && (c :: rest).any (fun c => 0x80 ≤ c.toNat) &&
      (c :: rest).all fun c => folded c == c && !inRanges ignoredRanges c && !isRefused c
  | none => false

/-- Whether characters between points are a label; none are one. -/
def isLabel : List Char → Bool
  | 'x' :: 'n' :: '-' :: '-' :: code => isEncodedLabel code
  | c :: _ => !isGraphemeExtend c
  | [] => true

/-- The name that text stands for, as it counts. -/
def name? (text : List Char) : Option (List Char) := do
  let written ← String.fromUTF8? ⟨(percentDecoded text).toArray⟩
  let name := (written.toList.filter fun c => !inRanges ignoredRanges c).map folded
  if name.any isRefused || !(name.splitOn '.').all isLabel then none else return name

end FoodScan.Url.Domain
