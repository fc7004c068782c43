import FoodScan.Text.Unprintable
import FoodScan.Text.GraphemeExtend

/-!
# Quoted text for readers

Text in quotes in which everything that could not be told apart on a screen is spelled
out: the quote, the backslash, the common control characters by a letter, every other
unprintable or blank character and every grapheme extender by its code point. The
halfwidth sound marks of kana extend a grapheme too, but have a column of their own and
are printed.
-/

namespace FoodScan.Text

/-- The code point in braces. -/
def escapeByNumber (c : Char) : List Char :=
  '\\' :: 'u' :: '\x7b' :: Nat.toDigits 16 c.toNat ++ ['\x7d']

/-- The letters that stand for a missing part of a Hangul syllable and show nothing. -/
def hangulFillers : List Char := ['\u115f', '\u1160', '\u3164', '\uffa0']

/-- The grapheme extenders that are printed as they are. -/
def halfwidthSoundMarks : List Char := ['\uff9e', '\uff9f']

/-- Whether a character is spelled out by its code point. -/
def isSpelledOut (c : Char) : Bool :=
  isUnprintable c || hangulFillers.contains c ||
    (isGraphemeExtend c && !halfwidthSoundMarks.contains c)

/-- A character inside the quotes. -/
def displayChar (c : Char) : List Char :=
  match c with
  | '\x00' => ['\\', '0']
  | '\t' => ['\\', 't']
  | '\n' => ['\\', 'n']
  | '\r' => ['\\', 'r']
  | '"' => ['\\', '"']
  | '\\' => ['\\', '\\']
  | c =>
    if c.toNat < 127 && 32 ≤ c.toNat then [c]
    else if isSpelledOut c then escapeByNumber c
    else [c]

/-- Text in quotes. -/
def displayQuoted (s : String) : String :=
  String.ofList ('"' :: s.toList.flatMap displayChar ++ ['"'])

end FoodScan.Text
