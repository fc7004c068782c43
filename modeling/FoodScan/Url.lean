import FoodScan.Url.Address
import FoodScan.Url.Domain

/-!
# URLs

`Url.isAbsolute` tells whether a text is a URL that needs no other to be relative to, by
the rules by which browsers read them: blanks at the ends and line breaks are of no
effect, and a URL of the web needs a host, with any number of slashes or backslashes
before it. Paths, queries and fragments can be any text.
-/

namespace FoodScan.Url

/-- The kinds of schemes. -/
inductive Kind where
  /-- A scheme of the web, whose URLs have a host. -/
  | web
  | file
  | other
deriving DecidableEq, Repr

/-- The kind of a scheme in lower case. -/
def Kind.ofScheme (scheme : String) : Kind :=
  if ["ftp", "http", "https", "ws", "wss"].contains scheme then .web
  else if scheme = "file" then .file
  else .other

/-- Text without blanks and control characters at its ends, and without tabs and line breaks. -/
def cleaned (text : List Char) : List Char :=
  let trimmed := text.dropWhile (· ≤ ' ')
  let trimmed := (trimmed.reverse.dropWhile (· ≤ ' ')).reverse
  trimmed.filter fun c => c != '\t' && c != '\n' && c != '\r'

/-- Parts text after its scheme, which starts with a letter and ends with a colon. -/
def scheme? (text : List Char) : Option (Kind × List Char) :=
  let name := text.takeWhile fun c => c.isAlphanum || c == '+' || c == '-' || c == '.'
  match name, text.drop name.length with
  | c :: _, ':' :: rest =>
    if c.isAlpha then some (.ofScheme (String.ofList (name.map Char.toLower)), rest) else none
  | _, _ => none

/-! ## Hosts -/

/-- Whether text is in brackets and what they hold is an address. -/
def isBracketed (text : List Char) : Bool :=
  text.getLast? == some ']' && Address.isGrouped (text.drop 1).dropLast

/-- Whether text is the host of a URL of the web: an address or a domain name. -/
def isHost (text : List Char) : Bool :=
  if text.head? = some '[' then isBracketed text
  else
    match Domain.name? text with
    | some name => !name.isEmpty && (!Address.isNumeric name || Address.isDotted name)
    | none => false

/-- The characters that no host can hold, whatever the scheme. -/
def hostDelimiters : List Char :=
  ['\x00', '\t', '\n', '\r', ' ', '#', '/', ':', '<', '>', '?', '@', '[', '\\', ']', '^', '|']

/-- Whether text is the host of a URL of another scheme, which can be empty. -/
def isOpaqueHost (text : List Char) : Bool :=
  if text.head? = some '[' then isBracketed text
  else !text.any hostDelimiters.contains

/-- Parts a host from its port: at the first colon outside brackets. -/
def atPort (inBrackets : Bool) : List Char → List Char × List Char
  | [] => ([], [])
  | c :: rest =>
    if c = ':' ∧ !inBrackets then ([], c :: rest)
    else
      let (host, port) := atPort (c = '[' ∨ inBrackets ∧ c ≠ ']') rest
      (c :: host, port)

/-- Whether text is a port with its colon, or nothing. A backslash ends a port. -/
def isPort : List Char → Bool
  | [] => true
  | _ :: rest =>
    let digits := rest.takeWhile (· != '\\')
    digits.all Char.isDigit &&
      match Text.number? 10 digits with
      | some n => n < 0x10000
      | none => false

/-- The part of a URL that names its host. -/
structure Authority where
  /-- What stands before the last at sign: somebody's name, and a password after a colon. -/
  user : Option (List Char)
  host : List Char
  /-- The port with its colon, or nothing. -/
  port : List Char
  /-- Whether the URL goes on after the authority. -/
  followed : Bool

namespace Authority

/-- The authority at the start of text: it goes up to a slash, a question mark or a number sign, in
a URL of the web also up to a backslash. -/
def ofText (kind : Kind) (text : List Char) : Authority :=
  let ends (c : Char) : Bool :=
    c == '/' || c == '?' || c == '#' || (kind == .web && c == '\\')
  let whole := text.takeWhile fun c => !ends c
  let hostAndPort := (whole.reverse.takeWhile (· != '@')).reverse
  let (host, port) := atPort false hostAndPort
  { user :=
      if whole.contains '@' then some (whole.take (whole.length - hostAndPort.length - 1)) else none
    host
    port
    followed := decide (whole.length < text.length) }

/-- Whether there is a host where one is wanted: in a URL of the web, before a port, after a name
or password, and between an at sign and what follows the authority. -/
def hasNeededHost (kind : Kind) (a : Authority) : Bool :=
  !a.host.isEmpty ||
    kind == .other && a.port.isEmpty &&
      match a.user with
      | none => true
      | some [] => !a.followed
      | some name => name == [':']

/-- Whether an authority is well written. -/
def isValid (kind : Kind) (a : Authority) : Bool :=
  a.hasNeededHost kind && isPort a.port &&
    if kind == .other then isOpaqueHost a.host else isHost a.host

end Authority

/-! ## Kinds of URLs -/

def isSlash (c : Char) : Bool := c == '/' || c == '\\'

/-- Whether text is the name of a drive, which stands where a file's host would. -/
def isDrive : List Char → Bool
  | [letter, mark] => letter.isAlpha && (mark == ':' || mark == '|')
  | _ => false

/-- Whether text can follow the scheme of files. The host may be missing. -/
def isFileRest : List Char → Bool
  | a :: b :: rest =>
    let host := rest.takeWhile fun c => !isSlash c && c != '?' && c != '#'
    !(isSlash a && isSlash b) || host.isEmpty || isDrive host || isHost host
  | _ => true

/-- Whether text can follow the scheme of its kind. -/
def isRest : Kind → List Char → Bool
  | .web, rest => (Authority.ofText .web (rest.dropWhile isSlash)).isValid .web
  | .file, rest => isFileRest rest
  | .other, '/' :: '/' :: rest => (Authority.ofText .other rest).isValid .other
  | .other, _ => true

/-- Whether text is a URL that needs no other to be relative to. -/
def isAbsolute (text : String) : Bool :=
  match scheme? (cleaned text.toList) with
  | some (kind, rest) => isRest kind rest
  | none => false

end FoodScan.Url
