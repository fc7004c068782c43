import FoodScan.Text.Scan

/-!
# Text in TOML

Text is quoted by one quote or by three, and takes escapes between double quotes only.
Text in three quotes may run over lines: a line break right after the opening quotes is
dropped, every other one becomes a line feed, and a backslash at the end of a line
swallows the blanks and line breaks after it.
-/

namespace FoodScan.Toml.Quoted

open Text

/-- A space or a tab. -/
def isBlank (c : Char) : Bool := c == ' ' || c == '\t'

def skipBlanks (cs : List Char) : List Char := cs.dropWhile isBlank

/-- Reads a line break. -/
def newline? : List Char → Option (List Char)
  | '\n' :: rest => some rest
  | '\r' :: '\n' :: rest => some rest
  | _ => none

/-- A character that may stand in a comment: no control character but the tab. -/
def isPlain (c : Char) : Bool :=
  c == '\t' || (decide (32 ≤ c.toNat) && decide (c.toNat ≠ 127))

/-! ## Escapes -/

/-- The character of a number written with `width` hexadecimal digits. -/
def codePoint? (width : Nat) (cs : List Char) : Option (Char × List Char) := do
  let digits := cs.take width
  if digits.length = width then
    let n ← number? 16 digits
    if n.isValidChar then return (Char.ofNat n, cs.drop width) else none
  else none

/-- Reads the character of an escape, after its backslash. -/
def escape? : List Char → Option (Char × List Char)
  | 'b' :: rest => some ('\x08', rest)
  | 'f' :: rest => some ('\x0c', rest)
  | 'n' :: rest => some ('\n', rest)
  | 'r' :: rest => some ('\r', rest)
  | 't' :: rest => some ('\t', rest)
  | '"' :: rest => some ('"', rest)
  | '\\' :: rest => some ('\\', rest)
  | 'u' :: rest => codePoint? 4 rest
  | 'U' :: rest => codePoint? 8 rest
  | _ => none

/-! ## One line -/

/-- Reads on in text between double quotes. -/
def basicStep (read : List Char) : List Char → Option (Progress (List Char) String)
  | [] => none
  | '"' :: rest => some (.done (String.ofList read.reverse) rest)
  | '\\' :: rest => do
    let (c, rest) ← escape? rest
    return .more (c :: read) rest
  | c :: rest => if isPlain c then some (.more (c :: read) rest) else none

/-- Reads text between double quotes, after the opening one. -/
def basic? (cs : List Char) : Option (String × List Char) := scan basicStep none [] cs

/-- Reads text between single quotes, after the opening one. -/
def literal? (cs : List Char) : Option (String × List Char) :=
  let content := cs.takeWhile fun c => isPlain c && c != '\''
  match cs.drop content.length with
  | '\'' :: rest => some (String.ofList content, rest)
  | _ => none

/-! ## Many lines -/

/-- Skips blanks and line breaks. -/
def skipSpace : List Char → List Char
  | '\r' :: '\n' :: rest => skipSpace rest
  | '\n' :: rest => skipSpace rest
  | ' ' :: rest => skipSpace rest
  | '\t' :: rest => skipSpace rest
  | rest => rest

/-- Drops a line break right after the opening quotes. -/
def dropFirstNewline (cs : List Char) : List Char := (newline? cs).getD cs

/-- Reads a run of quotes inside text in three quotes. Three quotes end the text; one or two
more before them belong to it. -/
def quoteRun (quote : Char) (read cs : List Char) : Progress (List Char) String :=
  let run := (cs.takeWhile (· == quote)).length
  if run < 3 then .more (List.replicate run quote ++ read) (cs.drop run)
  else
    let own := min (run - 3) 2
    .done (String.ofList (List.replicate own quote ++ read).reverse) (cs.drop (own + 3))

/-- Reads on in text between three double quotes. -/
def basicLinesStep (read : List Char) (cs : List Char) :
    Option (Progress (List Char) String) :=
  match cs with
  | [] => none
  | '"' :: _ => some (quoteRun '"' read cs)
  | '\\' :: rest =>
    match newline? (skipBlanks rest) with
    | some rest => some (.more read (skipSpace rest))
    | none => do
      let (c, rest) ← escape? rest
      return .more (c :: read) rest
  | c :: rest =>
    match newline? cs with
    | some rest => some (.more ('\n' :: read) rest)
    | none => if isPlain c then some (.more (c :: read) rest) else none

/-- Reads on in text between three single quotes. -/
def literalLinesStep (read : List Char) (cs : List Char) :
    Option (Progress (List Char) String) :=
  match cs with
  | [] => none
  | '\'' :: _ => some (quoteRun '\'' read cs)
  | c :: rest =>
    match newline? cs with
    | some rest => some (.more ('\n' :: read) rest)
    | none => if isPlain c then some (.more (c :: read) rest) else none

/-- Reads text in quotes of any kind. -/
def text? : List Char → Option (String × List Char)
  | '"' :: '"' :: '"' :: rest => scan basicLinesStep none [] (dropFirstNewline rest)
  | '\'' :: '\'' :: '\'' :: rest => scan literalLinesStep none [] (dropFirstNewline rest)
  | '"' :: rest => basic? rest
  | '\'' :: rest => literal? rest
  | _ => none

end FoodScan.Toml.Quoted
