/-!
# Control sequences

Text for a terminal can hold control sequences: an escape character and what belongs to
it, which moves the cursor, changes the colour or sets a title. `withoutControls` takes
them out of a text, and the control characters with them; of these only the tab, the
line feed, the form feed and the carriage return stay.
-/

namespace FoodScan.Text.ControlSequence

/-- What a character is part of. -/
inductive Context where
  | plain
  /-- After the escape character. -/
  | escape
  /-- After an escape and an intermediate character, such as a parenthesis. -/
  | escapeIntermediate
  /-- After the introducer of a sequence with parameters. -/
  | parameters
  /-- After the introducer of a device control string. -/
  | device
  | deviceParameters
  | deviceIntermediate
  /-- In a string for the terminal. -/
  | string
  /-- In a command for the terminal's system, such as a title. -/
  | command
deriving DecidableEq, Repr

/-- Whether a character's code point is in a range. -/
def isWithin (first last : Nat) (c : Char) : Bool :=
  decide (first ≤ c.toNat) && decide (c.toNat ≤ last)

/-- Whether one of the bytes of a character in UTF-8 is the eight-bit terminator of strings. -/
def hasTerminatorByte (c : Char) : Bool :=
  0x80 ≤ c.toNat && (String.singleton c).toUTF8.toList.contains 0x9c

/-- The context after an escape character and one more. -/
def afterEscape (c : Char) : Context :=
  match c with
  | '[' => .parameters
  | ']' => .command
  | 'P' => .device
  | 'X' => .string
  | '^' => .string
  | '_' => .string
  | c =>
    if isWithin 0x20 0x2f c then .escapeIntermediate
    else if isWithin 0x30 0x7e c then .plain
    else .escape

/-- The context after a character. The characters escape, cancel and substitute break off every
sequence. -/
def next (context : Context) (c : Char) : Context :=
  if c = '\x1b' then .escape
  else if c = '\x18' ∨ c = '\x1a' then .plain
  else
    match context with
    | .plain => .plain
    | .escape => afterEscape c
    | .escapeIntermediate => if isWithin 0x30 0x7e c then .plain else .escapeIntermediate
    | .parameters => if isWithin 0x40 0x7e c then .plain else .parameters
    | .device =>
      if isWithin 0x40 0x7e c then .string
      else if isWithin 0x30 0x3f c then .deviceParameters
      else if isWithin 0x20 0x2f c then .deviceIntermediate
      else .device
    | .deviceParameters =>
      if isWithin 0x3c 0x7e c then .string
      else if isWithin 0x20 0x2f c then .deviceIntermediate
      else .deviceParameters
    | .deviceIntermediate => if isWithin 0x30 0x7e c then .string else .deviceIntermediate
    | .string => if hasTerminatorByte c then .plain else .string
    | .command => if c = '\x07' then .plain else .command

/-- The control characters that stay. -/
def isLayout (c : Char) : Bool := c == '\t' || c == '\n' || c == '\x0c' || c == '\r'

/-- Whether a character in plain text stays. -/
def isPlain (c : Char) : Bool := isLayout c || (0x20 ≤ c.toNat && c != '\x7f')

/-- Whether text goes on at a character. Layout also shows inside a sequence that is not a
string, and the text goes on from there. -/
def isShown (context : Context) (c : Char) : Bool :=
  match context with
  | .plain => isPlain c
  | .escape | .escapeIntermediate | .parameters => isLayout c
  | _ => false

/-- The context that is kept while text is shown. A sequence that layout has broken into goes on at
the next control character, unless a character beyond ASCII has come between. -/
def kept (context : Context) (c : Char) : Context := if 0x80 ≤ c.toNat then .plain else context

/-- The characters that stay: while text is shown, up to the next control character; otherwise
from the next character that shows. -/
def strip (showing : Bool) (context : Context) : List Char → List Char
  | [] => []
  | c :: rest =>
    if (showing && isPlain c) || (!showing && isShown context c) then
      c :: strip true (kept context c) rest
    else strip false (next context c) rest

/-- The text without control sequences and control characters. -/
def withoutControls (s : String) : String := String.ofList (strip true .plain s.toList)

end FoodScan.Text.ControlSequence
