import FoodScan.Text.Scan

/-!
# Faults in JSON text

A reader that gives up names a cause and says how many bytes it left unread; with the
whole text at hand that becomes a line and a column. Columns count bytes from the start
of the line up to the place where reading stopped, that place included when the reader
had to look at a character to refuse it.
-/

namespace FoodScan.Json

/-- Why text was refused. -/
inductive Cause where
  | endInList | endInObject | endInString | endInValue
  | expectedColon | expectedListCommaOrEnd | expectedObjectCommaOrEnd
  | expectedIdent | expectedValue
  | invalidEscape | invalidNumber | numberOutOfRange
  | controlCharacter | keyNotString | loneSurrogate
  | trailingComma | trailingCharacters | endOfHexEscape | tooNested
  /-- A value of a kind that its place does not admit. -/
  | invalidType (found expected : String)
  /-- A field given twice. -/
  | duplicateField (name : String)
  /-- A value of none of the alternatives of a type. -/
  | noAlternative (type : String)
deriving DecidableEq, Repr

/-- The wording of a cause. -/
def Cause.message : Cause → String
  | .endInList => "EOF while parsing a list"
  | .endInObject => "EOF while parsing an object"
  | .endInString => "EOF while parsing a string"
  | .endInValue => "EOF while parsing a value"
  | .expectedColon => "expected `:`"
  | .expectedListCommaOrEnd => "expected `,` or `]`"
  | .expectedObjectCommaOrEnd => "expected `,` or `\x7d`"
  | .expectedIdent => "expected ident"
  | .expectedValue => "expected value"
  | .invalidEscape => "invalid escape"
  | .invalidNumber => "invalid number"
  | .numberOutOfRange => "number out of range"
  | .controlCharacter => "control character (\\u0000-\\u001F) found while parsing a string"
  | .keyNotString => "key must be a string"
  | .loneSurrogate => "lone leading surrogate in hex escape"
  | .trailingComma => "trailing comma"
  | .trailingCharacters => "trailing characters"
  | .endOfHexEscape => "unexpected end of hex escape"
  | .tooNested => "recursion limit exceeded"
  | .invalidType found expected => "invalid type: " ++ found ++ ", expected " ++ expected
  | .duplicateField name => "duplicate field `" ++ name ++ "`"
  | .noAlternative type => "data did not match any variant of untagged enum " ++ type

/-- A refusal: its cause, and how many bytes were left unread. -/
structure Fault where
  cause : Cause
  unread : Nat
deriving DecidableEq, Repr

namespace Fault

/-- A refusal before the first character of `rest`. -/
def before (cause : Cause) (rest : List Char) : Fault :=
  ⟨cause, Text.utf8Length rest⟩

/-- A refusal `bytes` bytes into `rest`, or at its end if it is shorter. -/
def within (cause : Cause) (bytes : Nat) (rest : List Char) : Fault :=
  ⟨cause, Text.utf8Length rest - bytes⟩

/-- A refusal on the first byte of `rest`, or at the end of the text. -/
def on (cause : Cause) (rest : List Char) : Fault := within cause 1 rest

end Fault

/-- A place in a text: lines count from one, columns in bytes. -/
structure Position where
  line : Nat
  column : Nat
deriving DecidableEq, Repr

/-- The place after the bytes of a text that were read. -/
def Position.after (read : List UInt8) : Position :=
  let newline : UInt8 := 10
  { line := read.count newline + 1
    column := (read.reverse.takeWhile (· != newline)).length }

/-- A refused text: the cause, and the place unless the refusal is of the text as a whole. -/
structure ReadError where
  cause : Cause
  position : Option Position
deriving DecidableEq, Repr

/-- The wording of an error. -/
def ReadError.message (e : ReadError) : String :=
  match e.position with
  | none => e.cause.message
  | some p =>
    e.cause.message ++ " at line " ++ toString p.line ++ " column " ++ toString p.column

/-- Places a fault in the text it was found in. -/
def Fault.locate (text : String) (f : Fault) : ReadError :=
  let bytes := text.toUTF8.toList
  { cause := f.cause
    position := some (Position.after (bytes.take (bytes.length - f.unread))) }

end FoodScan.Json
