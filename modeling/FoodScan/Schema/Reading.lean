import FoodScan.Schema
import FoodScan.Json.Reader
import FoodScan.LoadError
import FoodScan.Url

/-!
# Reading schemas

A schema is written as a JSON object of keywords, in either of two drafts. Its keywords
are taken in key order; other members are of no effect. Each keyword's value must be
well-formed as its draft prescribes, in subschemas too, or there is no schema.
-/

namespace FoodScan

namespace Schema

/-- Whether no two values are the same. -/
def allDistinct : List Json → Bool
  | [] => true
  | v :: rest => !rest.any (Json.sameValue v) && allDistinct rest

/-- A list of different texts. -/
def names? : Json → Option (List String)
  | .array items =>
    if allDistinct items then
      items.mapM fun v => match v with
        | .string s => some s
        | _ => none
    else none
  | _ => none

/-- One type name, or a non-empty list of different ones; they are kept in alphabetical order. -/
def typeNames? : Json → Option (List TypeName)
  | .string s => do return [← TypeName.ofName? s]
  | v => do
    let names ← (← names? v).mapM TypeName.ofName?
    if names.isEmpty then none else return TypeName.all.filter fun t => names.contains t

/-- A natural number written as an integer. -/
def natural? : Json → Option Nat
  | .number (.integer n) => if 0 ≤ n then some n.toNat else none
  | _ => none

def number? : Json → Option Json.Number
  | .number n => some n
  | _ => none

/-- The options of an enumeration. -/
def options? : Json → Option (List Json)
  | .array items => some items
  | _ => none

/-- The names of required members; draft 4 wants at least one. -/
def requiredNames? (draft : Draft) (v : Json) : Option (List String) := do
  let names ← names? v
  if draft == .four && names.isEmpty then none else return names

/-- A keyword that has no subschemas, by its name. Members of other names are passed over. -/
def plainKeyword? (draft : Draft) (name : String) (v : Json) : Option (List Keyword) :=
  match name with
  | "type" => do return [.types draft (← typeNames? v)]
  | "enum" => do return [.oneOf (← options? v)]
  | "required" => do return [.required (← requiredNames? draft v)]
  | "minimum" => do return [.minimum (← number? v)]
  | "maximum" => do return [.maximum (← number? v)]
  | "minLength" => do return [.minLength (← natural? v)]
  | "maxLength" => do return [.maxLength (← natural? v)]
  | "minItems" => do return [.minItems (← natural? v)]
  | "maxItems" => do return [.maxItems (← natural? v)]
  | "$schema" =>
    match v with
    | .string name => if Url.isAbsolute name then some [] else none
    | _ => none
  | _ => some []

/-- What is said about the members of an object that have no schema of their own. -/
inductive Others where
  | free
  | forbidden
  | schema (s : Schema)

/-- The keyword about members, where it says something about other members. -/
def membersKeyword (named : Option (List (String × Schema))) : Others → List Keyword
  | .free => []
  | .schema s => [.membersOrElse (named.getD []) s]
  | .forbidden =>
    match named with
    | some named => [.membersOnly named]
    | none => [.noMembers]

mutual

/-- The schema of a JSON value; from draft 7 on, a truth value is one too. -/
def ofJson? (draft : Draft) : Json → Option Schema
  | .bool b =>
    if draft == .four then none else some (if b then .anything else .nothing)
  | .object members => do
    let others ← others? draft members
    let named ← named? draft members
    return .keywords (← keywords? draft named others members)
  | _ => none

/-- What a schema says about other members. -/
def others? (draft : Draft) : List (String × Json) → Option Others
  | [] => some .free
  | (key, v) :: rest =>
    if key = "additionalProperties" then
      match v with
      | .bool b => some (if b then .free else .forbidden)
      | .object members => do return .schema (← ofJson? draft (.object members))
      | _ => none
    else others? draft rest

/-- The named members of a schema. -/
def named? (draft : Draft) : List (String × Json) → Option (Option (List (String × Schema)))
  | [] => some none
  | (key, v) :: rest =>
    if key = "properties" then
      match v with
      | .object members => do return some (← schemaMembers? draft members)
      | _ => none
    else named? draft rest

/-- The keywords of a schema, in key order. Named members are judged together with the others
where something is said about these. -/
def keywords? (draft : Draft) (named : Option (List (String × Schema))) (others : Others) :
    List (String × Json) → Option (List Keyword)
  | [] => some []
  | (key, v) :: rest => do
    let first : List Keyword ←
      if key = "items" then
        match v with
        | .array [] => none
        | .array schemas => do pure [Keyword.firstItems (← schemas? draft schemas)]
        | v => do pure [Keyword.items (← ofJson? draft v)]
      else if key = "additionalProperties" then pure (membersKeyword named others)
      else if key = "properties" then
        -- otherwise the keyword about other members judges the named ones too
        match others with
        | .free => pure [Keyword.properties (named.getD [])]
        | _ => pure []
      else plainKeyword? draft key v
    return first ++ (← keywords? draft named others rest)

def schemas? (draft : Draft) : List Json → Option (List Schema)
  | [] => some []
  | v :: rest => do return (← ofJson? draft v) :: (← schemas? draft rest)

def schemaMembers? (draft : Draft) : List (String × Json) → Option (List (String × Schema))
  | [] => some []
  | (name, v) :: rest => do return (name, ← ofJson? draft v) :: (← schemaMembers? draft rest)

end

/-- The draft that a schema declares by its name; draft 7 unless that is the name of draft 4. -/
def draftOf (document : Json) : Draft :=
  match document with
  | .object members =>
    match members.lookup "$schema" with
    | some (.string "http://json-schema.org/draft-04/schema#") => .four
    | _ => .seven
  | _ => .seven

/-- The schema of a document. -/
def ofDocument (document : Json) : Except SchemaFault Schema :=
  match ofJson? (draftOf document) document with
  | some schema => .ok schema
  | none => .error .illFormed

/-- The schema of a text. -/
def parse (text : String) : Except SchemaFault Schema :=
  match Json.read text with
  | .ok document => ofDocument document
  | .error e => .error (.unreadable e)

end Schema

end FoodScan
