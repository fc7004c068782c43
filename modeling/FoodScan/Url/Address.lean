import FoodScan.Text.Scan

/-!
# Network addresses

The texts of addresses that stand for a host: numbers between dots, as in `127.0.0.1`,
and groups of hexadecimal digits between colons, as in `::1`.
-/

namespace FoodScan.Url.Address

open Text

/-! ## Numbers between dots -/

/-- The value of a number: hexadecimal after `0x`, octal after a zero, else decimal. Nothing but
the mark of its base stands for zero. -/
def number? : List Char → Option Nat
  | [] => none
  | '0' :: 'x' :: digits => Text.number? 16 digits
  | '0' :: digits => Text.number? 8 digits
  | digits => Text.number? 10 digits

/-- The parts of a name between dots; a dot at its end is of no effect. -/
def parts (name : List Char) : List (List Char) :=
  let parts := name.splitOn '.'
  if 1 < parts.length && parts.getLast? == some [] then parts.dropLast else parts

/-- Whether a name can only be an address: its last part is a number, or at least looks like one. -/
def isNumeric (name : List Char) : Bool :=
  match (parts name).getLast? with
  | some last => (!last.isEmpty && last.all Char.isDigit) || (number? last).isSome
  | none => false

/-- Whether a name is an address of up to four numbers, each of one byte, the last of as many as
are left. -/
def isDotted (name : List Char) : Bool :=
  match (parts name).mapM number? with
  | some numbers =>
    match numbers.reverse with
    | last :: others =>
      others.length < 4 && others.all (· < 256) && last < Nat.pow 256 (4 - others.length)
    | [] => false
  | none => false

/-! ## Groups between colons -/

/-- Whether text is a number of one byte in decimal without needless zeros. -/
def isByte (digits : List Char) : Bool :=
  !digits.isEmpty && digits.all Char.isDigit && (digits.length == 1 || digits.head? != some '0') &&
    match Text.number? 10 digits with
    | some n => n < 256
    | none => false

/-- Whether text is four numbers of one byte in decimal. -/
def isFourBytes (text : List Char) : Bool :=
  let bytes := text.splitOn '.'
  bytes.length == 4 && bytes.all isByte

/-- Whether text is a group: one to four hexadecimal digits. -/
def isGroup (text : List Char) : Bool :=
  !text.isEmpty && text.length ≤ 4 && text.all fun c => (hexValue? c).isSome

/-- The number of groups between colons; four bytes in decimal may stand for the last two. -/
def groupCount? (bytesAllowed : Bool) : List (List Char) → Option Nat
  | [] => some 0
  | [last] =>
    if isGroup last then some 1
    else if bytesAllowed && isFourBytes last then some 2
    else none
  | group :: rest =>
    if isGroup group then (groupCount? bytesAllowed rest).map (· + 1) else none

/-- The number of groups in text that may be empty. -/
def countIn? (bytesAllowed : Bool) (text : List Char) : Option Nat :=
  if text.isEmpty then some 0 else groupCount? bytesAllowed (text.splitOn ':')

/-- Parts text at its first two colons in a row. -/
def atGap? : List Char → Option (List Char × List Char)
  | ':' :: ':' :: rest => some ([], rest)
  | c :: rest => (atGap? rest).map fun (left, right) => (c :: left, right)
  | [] => none

/-- Whether text is an address of eight groups. Two colons in a row, once, stand for at least one
group of zeros. -/
def isGrouped (text : List Char) : Bool :=
  match atGap? text with
  | some (left, right) =>
    match countIn? false left, countIn? true right with
    | some a, some b => a + b < 8
    | _, _ => false
  | none => countIn? true text == some 8

end FoodScan.Url.Address
