import FoodScan.Query.Evaluation
import FoodScan.Json.Printer

/-!
# Reports

The text that commands print: outcomes and records, for readers or as JSON. For readers
it may be colored; equal warnings are then counted and told once, in the order of their
texts.
-/

namespace FoodScan

namespace Report

/-! ## Color -/

/-- How a piece of text is set off. -/
structure Style where
  /-- The number of a terminal color. -/
  color : Nat
  bold : Bool
deriving DecidableEq, Repr

def Style.identifier : Style := ⟨2, false⟩
def Style.heading : Style := ⟨5, true⟩
def Style.fieldName : Style := ⟨6, false⟩
def Style.warning : Style := ⟨3, true⟩

/-- Text set off by a style, where color is wanted. -/
def paint (color : Bool) (style : Style) (text : String) : String :=
  if color then
    "\x1b[0m" ++ (if style.bold then "\x1b[1m" else "") ++
      "\x1b[3" ++ toString style.color ++ "m" ++ text ++ "\x1b[0m"
  else text

/-! ## Outcomes -/

/-- One identifier. -/
def idLine (color : Bool) (id : Int64) : String :=
  paint color .identifier (toString id.toInt) ++ "\n"

/-- The identifiers, one a line. -/
def ids (color : Bool) (outcome : Outcome) : String :=
  String.join (outcome.ids.map (idLine color))

/-- How often each text occurs. -/
def tally (texts : List String) : KeyMap Nat :=
  texts.foldl (fun counts text => counts.insert text ((counts.get? text).getD 0 + 1)) KeyMap.empty

/-- One warning and the number of records it is about. -/
def warningLine (color : Bool) (message : String) (records : Nat) : String :=
  paint color .warning "warning" ++ ": " ++ message ++ " (" ++ toString records ++ " records)\n"

/-- The warnings, each text once. -/
def warnings (color : Bool) (outcome : Outcome) : String :=
  String.join
    ((tally (outcome.warnings.map Warning.message)).entries.map fun e =>
      warningLine color e.1 e.2)

/-- The outcome as a JSON object. -/
def outcomeJson (outcome : Outcome) : Json :=
  .object [
    ("ids", .array (outcome.ids.map fun n => .number (.integer n.toInt))),
    ("warnings", .array (outcome.warnings.map fun w => .string w.message))]

/-! ## Records -/

/-- A name followed by spaces. The width is the number of bytes of the longest name, but names
are measured in characters. -/
def pad (width : Nat) (name : String) : String :=
  name ++ String.ofList (List.replicate (width - name.length) ' ')

/-- The greatest number of bytes of a field name. -/
def nameWidth (r : Record) : Nat :=
  (r.fields.keys.map String.utf8ByteSize).foldl max 0

/-- One field. -/
def fieldLine (color : Bool) (width : Nat) (e : String × Row) : String :=
  paint color .fieldName ("  " ++ pad width e.1) ++ "  " ++ (Row.toJson e.2).render ++ "\n"

/-- A record: its identifier and file, and a line for each field. -/
def record (color : Bool) (r : Record) : String :=
  paint color .heading (toString r.identifier.toInt) ++
    (match r.source with
      | some path => "  " ++ path
      | none => "") ++ "\n" ++
    String.join (r.fields.entries.map (fieldLine color (nameWidth r)))

/-- Records with a blank line between them. -/
def records (color : Bool) (rs : List Record) : String :=
  "\n".intercalate (rs.map (record color))

/-- Records as lines of JSON. -/
def recordLines (rs : List Record) : String :=
  String.join (rs.map fun r => r.toJson.render ++ "\n")

end Report

end FoodScan
