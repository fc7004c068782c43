import FoodScan.Json
import FoodScan.Json.Printer

/-!
# Schemas

A schema is a list of keywords, each of which constrains the values of some kinds and
lets all others pass. `Schema.violations` lists everything a value does wrong, keyword
by keyword in the order of the schema, with the place in the value; a value is valid
when nothing is listed.
-/

namespace FoodScan

namespace Schema

/-- The editions of the schema language that are told apart. -/
inductive Draft where
  /-- Draft 4: only a number without a fraction part is of type integer. -/
  | four
  /-- Draft 7: a float that is whole is of type integer. -/
  | seven
deriving DecidableEq, Repr

/-- The types that a schema can name, in alphabetical order. -/
inductive TypeName where
  | array | boolean | integer | null | number | object | string
deriving DecidableEq, Repr

namespace TypeName

def all : List TypeName := [.array, .boolean, .integer, .null, .number, .object, .string]

def name : TypeName → String
  | .array => "array"
  | .boolean => "boolean"
  | .integer => "integer"
  | .null => "null"
  | .number => "number"
  | .object => "object"
  | .string => "string"

def ofName? (s : String) : Option TypeName := all.find? fun t => t.name == s

/-- Whether a value is of a type. -/
def admits (draft : Draft) (t : TypeName) (v : Json) : Bool :=
  match t, v with
  | .array, .array _ => true
  | .boolean, .bool _ => true
  | .null, .null => true
  | .number, .number _ => true
  | .object, .object _ => true
  | .string, .string _ => true
  | .integer, .number (.integer _) => true
  | .integer, .number (.float x) => draft == .seven && x.isWhole
  | _, _ => false

end TypeName

end Schema

mutual

/-- What a value has to satisfy. -/
inductive Schema where
  | anything
  | nothing
  | keywords (list : List Schema.Keyword)

/-- One constraint. -/
inductive Schema.Keyword where
  /-- The value is of one of these types. -/
  | types (draft : Schema.Draft) (names : List Schema.TypeName)
  /-- The value is one of these. -/
  | oneOf (options : List Json)
  /-- Members of an object, where present. -/
  | properties (named : List (String × Schema))
  /-- Members of an object, where present, and one schema for all other members. -/
  | membersOrElse (named : List (String × Schema)) (others : Schema)
  /-- Members of an object, where present, and no other member. -/
  | membersOnly (named : List (String × Schema))
  /-- No member at all. -/
  | noMembers
  /-- Members that an object must have. -/
  | required (names : List String)
  /-- Every item of a list. -/
  | items (each : Schema)
  /-- The first items of a list, one schema for each. -/
  | firstItems (schemas : List Schema)
  | minimum (limit : Json.Number)
  | maximum (limit : Json.Number)
  /-- The least number of characters of a text. -/
  | minLength (limit : Nat)
  /-- The greatest number of characters of a text. -/
  | maxLength (limit : Nat)
  /-- The least number of items of a list. -/
  | minItems (limit : Nat)
  /-- The greatest number of items of a list. -/
  | maxItems (limit : Nat)

end

namespace Schema

/-! ## Violations -/

/-- What a value does wrong. -/
inductive Problem where
  | wrongType (v : Json) (names : List TypeName)
  | notListed (v : Json) (options : List Json)
  | missing (name : String)
  | unexpected (names : List String)
  | refused (v : Json)
  | below (v : Json) (limit : Json.Number)
  | above (v : Json) (limit : Json.Number)
  | shorter (v : Json) (limit : Nat)
  | longer (v : Json) (limit : Nat)
  | fewer (v : Json) (limit : Nat)
  | more (v : Json) (limit : Nat)

/-- A number of things, in the singular for one. -/
def counted (n : Nat) (thing : String) : String :=
  toString n ++ " " ++ thing ++ (if n = 1 then "" else "s")

/-- The wording of a problem. -/
def Problem.message : Problem → String
  | .wrongType v names =>
    let quoted := names.map fun t => "\"" ++ t.name ++ "\""
    v.render ++ (if names.length = 1 then " is not of type " else " is not of types ") ++
      ", ".intercalate quoted
  | .notListed v options => v.render ++ " is not one of " ++ (Json.array options).render
  | .missing name => Json.quote name ++ " is a required property"
  | .unexpected names =>
    "Additional properties are not allowed (" ++
      ", ".intercalate (names.map fun n => "'" ++ n ++ "'") ++
      (if names.length = 1 then " was" else " were") ++ " unexpected)"
  | .refused v => "False schema does not allow " ++ v.render
  | .below v limit =>
    v.render ++ " is less than the minimum of " ++ (Json.number limit).render
  | .above v limit =>
    v.render ++ " is greater than the maximum of " ++ (Json.number limit).render
  | .shorter v limit => v.render ++ " is shorter than " ++ counted limit "character"
  | .longer v limit => v.render ++ " is longer than " ++ counted limit "character"
  | .fewer v limit => v.render ++ " has less than " ++ counted limit "item"
  | .more v limit => v.render ++ " has more than " ++ counted limit "item"

/-- A step into a value. -/
inductive Step where
  | member (name : String)
  | item (index : Nat)
deriving DecidableEq, Repr

/-- A step as it is written in a pointer: a tilde and a slash in a name are escaped. -/
def Step.pointer : Step → String
  | .member name =>
    let escape (c : Char) : List Char :=
      if c = '~' then ['~', '0'] else if c = '/' then ['~', '1'] else [c]
    String.ofList ('/' :: name.toList.flatMap escape)
  | .item index => "/" ++ toString index

/-- A problem and the place it is at, the outermost step first. -/
structure Violation where
  path : List Step
  problem : Problem

/-- The wording of a violation; the whole value is not named as a place. -/
def Violation.message (v : Violation) : String :=
  if v.path.isEmpty then v.problem.message
  else v.problem.message ++ " (at " ++ String.join (v.path.map Step.pointer) ++ ")"

/-- A violation seen from one step further out. -/
def Violation.under (step : Step) (v : Violation) : Violation :=
  { v with path := step :: v.path }

/-! ## Validation -/

/-- The problem, if a condition fails. -/
def demand (ok : Bool) (problem : Problem) : List Violation :=
  if ok then [] else [⟨[], problem⟩]

mutual

/-- Everything a value does wrong. -/
def violations (v : Json) : Schema → List Violation
  | .anything => []
  | .nothing => [⟨[], .refused v⟩]
  | .keywords list => keywordsViolations v list

def keywordsViolations (v : Json) : List Keyword → List Violation
  | [] => []
  | k :: rest => keywordViolations v k ++ keywordsViolations v rest

/-- What a value does wrong by one keyword. -/
def keywordViolations (v : Json) : Keyword → List Violation
  | .types draft names =>
    demand (names.any fun t => t.admits draft v) (.wrongType v names)
  | .oneOf options => demand (options.any fun o => Json.sameValue o v) (.notListed v options)
  | .properties named =>
    match v with
    | .object members => namedViolations members named
    | _ => []
  | .membersOrElse named others =>
    match v with
    | .object members =>
      members.flatMap fun e =>
        ((memberViolations e named).getD (violations e.2 others)).map
          (Violation.under (.member e.1))
    | _ => []
  | .membersOnly named =>
    match v with
    | .object members =>
      -- members with a schema are judged first, the others are told together after them
      let judged := members.map fun e => (e.1, memberViolations e named)
      let unexpected := judged.filterMap fun j => if j.2.isNone then some j.1 else none
      (judged.flatMap fun j => (j.2.getD []).map (Violation.under (.member j.1))) ++
        demand unexpected.isEmpty (.unexpected unexpected)
    | _ => []
  | .noMembers =>
    match v with
    | .object (e :: _) => [⟨[], .refused e.2⟩]
    | _ => []
  | .required names =>
    match v with
    | .object members =>
      names.flatMap fun name => demand (members.lookup name).isSome (.missing name)
    | _ => []
  | .items each =>
    match v with
    | .array items =>
      items.zipIdx.flatMap fun e =>
        (violations e.1 each).map (Violation.under (.item e.2))
    | _ => []
  | .firstItems schemas =>
    match v with
    | .array items => itemsViolations items 0 schemas
    | _ => []
  | .minimum limit =>
    match v with
    | .number n => demand (n.compare limit != .lt) (.below v limit)
    | _ => []
  | .maximum limit =>
    match v with
    | .number n => demand (n.compare limit != .gt) (.above v limit)
    | _ => []
  | .minLength limit =>
    match v with
    | .string s => demand (decide (limit ≤ s.length)) (.shorter v limit)
    | _ => []
  | .maxLength limit =>
    match v with
    | .string s => demand (decide (s.length ≤ limit)) (.longer v limit)
    | _ => []
  | .minItems limit =>
    match v with
    | .array items => demand (decide (limit ≤ items.length)) (.fewer v limit)
    | _ => []
  | .maxItems limit =>
    match v with
    | .array items => demand (decide (items.length ≤ limit)) (.more v limit)
    | _ => []

/-- What the members of an object that have a schema do wrong, in the order of the schemas. -/
def namedViolations (members : List (String × Json)) : List (String × Schema) → List Violation
  | [] => []
  | (name, schema) :: rest =>
    (match members.lookup name with
      | some v => (violations v schema).map (Violation.under (.member name))
      | none => []) ++ namedViolations members rest

/-- What a member does wrong by the schema for its name, if there is one. -/
def memberViolations (e : String × Json) : List (String × Schema) → Option (List Violation)
  | [] => none
  | (name, schema) :: rest =>
    if name = e.1 then some (violations e.2 schema) else memberViolations e rest

/-- What the items of a list do wrong, each by the schema at its place. -/
def itemsViolations (items : List Json) (index : Nat) : List Schema → List Violation
  | [] => []
  | schema :: rest =>
    match items with
    | [] => []
    | v :: items =>
      (violations v schema).map (Violation.under (.item index)) ++
        itemsViolations items (index + 1) rest

end

end Schema

end FoodScan
