import FoodScan.Toml.Quoted
import FoodScan.Toml.Table
import FoodScan.Toml.Tagged

/-!
# Reading TOML

A file is a sequence of lines, each a pair, a header, a comment or nothing; a value in
brackets or in three quotes may run over several. Lists and inline tables nest at most
79 deep, and a dotted key has at most 79 parts. `Toml.parse` gives nothing for a file
that breaks a rule.
-/

namespace FoodScan.Toml

open Text Quoted

namespace Reader

/-! ## Blanks, comments and line ends -/

/-- Skips a comment, if there is one. -/
def skipComment : List Char → List Char
  | '#' :: rest => rest.dropWhile isPlain
  | rest => rest

/-- The end of a line: a line break, or the end of the file. -/
def endOfLine? : List Char → Option (List Char)
  | [] => some []
  | cs => newline? cs

/-- What may follow on a line after a pair or a header. -/
def lineTail? (cs : List Char) : Option (List Char) :=
  endOfLine? (skipComment (skipBlanks cs))

/-- Skips one comment, or takes note that there is none. -/
def spaceStep (_ : Unit) (cs : List Char) : Option (Progress Unit Unit) :=
  match skipBlanks cs with
  | '#' :: rest => do return .more () (← newline? (rest.dropWhile isPlain))
  | rest =>
    match newline? rest with
    | some rest => some (.more () rest)
    | none => if rest.head? = some '\r' then none else some (.done () rest)

/-- Skips blanks, line breaks and comments, each comment up to the end of its line. -/
def space? (cs : List Char) : Option (List Char) := do
  let ((), rest) ← scan spaceStep none () cs
  return rest

/-! ## Keys -/

/-- A character of a key without quotes. -/
def isBare (c : Char) : Bool :=
  c.isAlphanum || c == '-' || c == '_'

/-- Reads one part of a key. -/
def keyPart? : List Char → Option (String × List Char)
  | '"' :: rest => basic? rest
  | '\'' :: rest => literal? rest
  | cs =>
    let name := cs.takeWhile isBare
    if name.isEmpty then none else some (String.ofList name, cs.dropWhile isBare)

/-- Reads a part of a key and the blanks around it, and a dot if one follows. -/
def keyStep (read : List String) (cs : List Char) :
    Option (Progress (List String) (List String)) := do
  let (part, rest) ← keyPart? (skipBlanks cs)
  match skipBlanks rest with
  | '.' :: rest => return .more (part :: read) rest
  | rest => return .done (part :: read) rest

/-- The number of parts that a key may not reach, nor the depth of nested values. -/
def nestingLimit : Nat := 80

/-- Reads a key: the path to its last part, and that part. -/
def key? (cs : List Char) : Option ((List String × String) × List Char) := do
  let (parts, rest) ← scan keyStep none [] cs
  match parts with
  | last :: path =>
    if parts.length < nestingLimit then return ((path.reverse, last), rest) else none
  | [] => none

/-! ## Values -/

/-- Reads a fixed word. -/
def word? (letters : List Char) (v : Value) (cs : List Char) : Option (Value × List Char) :=
  if letters.isPrefixOf cs then some (v, cs.drop letters.length) else none

/-- Reads one item of a list with `item`, or the closing bracket. The state holds the items in
reverse, and whether another may follow. -/
def listStep (item : List Char → Option (Value × List Char)) (state : List Value × Bool)
    (cs : List Char) : Option (Progress (List Value × Bool) (List Value)) := do
  match ← space? cs with
  | ']' :: rest => return .done state.1.reverse rest
  | cs =>
    if !state.2 then none
    else
      let (v, rest) ← item cs
      match ← space? rest with
      | ',' :: rest => return .more (v :: state.1, true) rest
      | rest => return .more (v :: state.1, false) rest

/-- Reads one pair: a key, an equals sign, and a value with `item`. -/
def pair? (item : List Char → Option (Value × List Char)) (cs : List Char) :
    Option ((List String × String × Value) × List Char) := do
  let ((path, key), rest) ← key? cs
  let rest ← mark? '=' rest
  let (v, rest) ← item (skipBlanks rest)
  return ((path, key, v), rest)

/-- Reads one pair of an inline table and what follows it, a comma or the closing brace. -/
def pairStep (item : List Char → Option (Value × List Char))
    (read : List (List String × String × Value)) (cs : List Char) :
    Option (Progress (List (List String × String × Value))
      (List (List String × String × Value))) := do
  let (p, rest) ← pair? item cs
  match skipBlanks rest with
  | ',' :: rest => return .more (p :: read) rest
  | '\x7d' :: rest => return .done (p :: read).reverse rest
  | _ => none

/-- Reads the pairs of an inline table, after its opening brace. -/
def pairs? (item : List Char → Option (Value × List Char)) (cs : List Char) :
    Option (List (List String × String × Value) × List Char) :=
  match skipBlanks cs with
  | '\x7d' :: rest => some ([], rest)
  | cs => scan (pairStep item) none [] cs

/-- Reads a value in which lists and inline tables nest at most `depth` deep. -/
def value? (depth : Nat) (cs : List Char) : Option (Value × List Char) :=
  match cs with
  | [] => none
  | '[' :: rest =>
    match depth with
    | 0 => none
    | depth + 1 => do
      let (items, rest) ← scan (listStep (value? depth)) none ([], true) rest
      return (.array items, rest)
  | '\x7b' :: rest =>
    match depth with
    | 0 => none
    | depth + 1 => do
      let (pairs, rest) ← pairs? (value? depth) rest
      return (← inlineTable pairs, rest)
  | c :: rest =>
    if c = '"' || c = '\'' then do
      let (s, rest) ← text? (c :: rest)
      return (.string s, rest)
    else if c = '+' || c = '-' || c.isDigit then Number.read? (c :: rest)
    else
      word? "true".toList (.boolean true) (c :: rest) <|>
      word? "false".toList (.boolean false) (c :: rest) <|>
      Number.special? (c :: rest)

/-! ## Lines -/

/-- Reads a header, after its opening bracket. -/
def header? (t : Tables) : List Char → Option (Tables × List Char)
  | '[' :: rest => do
    let ((path, key), rest) ← key? rest
    let rest ← mark? ']' rest
    let rest ← mark? ']' rest
    return (← t.openArrayItem path key, ← lineTail? rest)
  | rest => do
    let ((path, key), rest) ← key? rest
    let rest ← mark? ']' rest
    return (← t.openTable path key, ← lineTail? rest)

/-- Reads one line. -/
def lineStep (t : Tables) (cs : List Char) : Option (Progress Tables Tables) :=
  match skipBlanks cs with
  | [] => some (.done t [])
  | '#' :: rest => do return .more t (← endOfLine? (rest.dropWhile isPlain))
  | '[' :: rest => do
    let (t, rest) ← header? t rest
    return .more t rest
  | cs =>
    match newline? cs with
    | some rest => some (.more t rest)
    | none => do
      let ((path, key, v), rest) ← pair? (value? (nestingLimit - 1)) cs
      return .more (← t.assign path key v) (← lineTail? rest)

/-- Drops a byte-order mark. -/
def dropMark : List Char → List Char
  | '\ufeff' :: rest => rest
  | cs => cs

end Reader

/-- The value of a file: its table, or the date or time of which that is the long form. -/
def parse (text : String) : Option Value := do
  let (tables, _) ← scan Reader.lineStep none .start (Reader.dropMark text.toList)
  (← tables.finish).settled?

end FoodScan.Toml
