import Mathlib
import FoodScan.Schema.Bundled

/-!
# Schemas as lists of rules

A rule asks one thing of the value at one place, if there is a value: that it is of a type, or that
it has a member. A schema is `ToldBy` a list of rules if its violations of any value are the
breaches of these rules, one for each rule that is broken, in the order of the rules. So the rules
say what a schema tells, and how often, without its keywords; what they leave is said by `Obeys`.

The schemas that tables are made of are told by rules:

* `toldBy_typed`, `obeys_typeRules` — values of one type;
* `toldBy_textsFirst`, `obeys_textsFirst` — lists that start with texts;
* `toldBy_table`, `obeys_table` — tables, by the rules of their members.
-/

namespace FoodScan

open Schema (Step TypeName Keyword Problem Violation violations)
open Schema.Bundled (typed table textsFirst)

-- ---------------------------------------------------------------------------
-- Values
-- ---------------------------------------------------------------------------

namespace Json

/-- The member of a name, if the value is an object that has one. -/
def member? (name : String) : Json → Option Json
  | .object members => members.lookup name
  | _ => none

/-- The value that steps lead to. -/
def at? : List Step → Json → Option Json
  | [], v => some v
  | .member name :: rest, v => (v.member? name).bind (at? rest)
  | .item index :: rest, v => (v.items?.bind (·[index]?)).bind (at? rest)

def IsObject (v : Json) : Prop := ∃ members, v = .object members

def IsList (v : Json) : Prop := ∃ items, v = .array items

def IsText (v : Json) : Prop := ∃ s, v = .string s

def IsTruthValue (v : Json) : Prop := ∃ b, v = .bool b

/-- A number that was written as an integer: `1`, but not `1.0`. -/
def IsInteger (v : Json) : Prop := ∃ n, v = .number (.integer n)

/-- A list whose first items, as far as there are so many, are texts. -/
def StartsWithTexts (n : Nat) (v : Json) : Prop :=
  ∃ items, v = .array items ∧ ∀ w ∈ items.take n, w.IsText

/-- A member that must be there. -/
def Requires (v : Json) (name : String) (P : Json → Prop) : Prop :=
  ∃ w, v.member? name = some w ∧ P w

/-- A member that may be missing. -/
def Permits (v : Json) (name : String) (P : Json → Prop) : Prop :=
  ∀ w, v.member? name = some w → P w

/-- To require something of a member is to have it, and to permit it only so. -/
theorem requires_iff {v : Json} {name : String} {P : Json → Prop} :
    v.Requires name P ↔ (v.member? name).isSome = true ∧ v.Permits name P := by
  rw [Requires, Permits]
  cases v.member? name <;> simp

end Json

-- ---------------------------------------------------------------------------
-- Rules
-- ---------------------------------------------------------------------------

namespace Schema

/-- What is asked of a value. -/
inductive Demand where
  | ofType (t : TypeName)
  /-- If the value is an object, it has a member of that name. -/
  | hasMember (name : String)
deriving DecidableEq

/-- Something that is asked of the value at a place, if there is one. -/
structure Rule where
  place : List Step
  demand : Demand
deriving DecidableEq

def Demand.problem? : Demand → Json → Option Problem
  | .ofType t, v => if t.admits .four v then none else some (.wrongType v [t])
  | .hasMember name, .object members =>
    if (members.lookup name).isSome then none else some (.missing name)
  | .hasMember _, _ => none

/-- How a value breaks a rule, if it does. -/
def Rule.breach? (rule : Rule) (v : Json) : Option Violation :=
  (v.at? rule.place).bind fun w => (rule.demand.problem? w).map fun p => ⟨rule.place, p⟩

/-- The rule for what a step leads to. -/
def Rule.under (step : Step) (rule : Rule) : Rule := { rule with place := step :: rule.place }

/-- A rule about what a step leads to is breached there, and told with the step. -/
theorem Rule.breach?_under (step : Step) (rule : Rule) (v : Json) :
    (rule.under step).breach? v =
      ((v.at? [step]).bind rule.breach?).map (Violation.under step) := by
  have hPlace : v.at? (step :: rule.place) = (v.at? [step]).bind (Json.at? rule.place) := by
    cases step <;> simp [Json.at?]
  rw [Rule.breach?, Rule.under, hPlace]
  cases v.at? [step] with
  | none => rfl
  | some w =>
    simp only [Option.bind_some, Rule.breach?, Option.map_bind, Function.comp_def, Option.map_map]
    rfl

/-- The rules for what a step leads to are broken there, or nowhere. -/
theorem filterMap_breach?_under (step : Step) (rules : List Rule) (v : Json) :
    (rules.map (Rule.under step)).filterMap (·.breach? v) =
      ((v.at? [step]).elim [] fun w => rules.filterMap (·.breach? w)).map
        (Violation.under step) := by
  simp only [List.filterMap_map, Function.comp_def, Rule.breach?_under]
  cases v.at? [step] with
  | none => simp
  | some w => simp [List.map_filterMap]

-- ---------------------------------------------------------------------------
-- Keywords
-- ---------------------------------------------------------------------------

/-- A schema tells of each rule that a value breaks, in the order of the rules, and nothing else. -/
def ToldBy (schema : Schema) (rules : List Rule) : Prop :=
  ∀ v, violations v schema = rules.filterMap (·.breach? v)

/-- The same of one keyword. -/
def Keyword.ToldBy (k : Keyword) (rules : List Rule) : Prop :=
  ∀ v, keywordViolations v k = rules.filterMap (·.breach? v)

/-- The keywords of a schema speak one after the other. -/
theorem keywordsViolations_eq_flatMap (v : Json) (list : List Keyword) :
    keywordsViolations v list = list.flatMap (keywordViolations v) := by
  induction list with
  | nil => rw [keywordsViolations, List.flatMap_nil]
  | cons k rest ih => rw [keywordsViolations, ih, List.flatMap_cons]

/-- So do the schemas of named members, of those that are there. -/
theorem namedViolations_eq_flatMap (members : List (String × Json))
    (named : List (String × Schema)) :
    namedViolations members named = named.flatMap fun e =>
      ((members.lookup e.1).elim [] fun w => violations w e.2).map
        (Violation.under (.member e.1)) := by
  induction named with
  | nil => rw [namedViolations, List.flatMap_nil]
  | cons e rest ih =>
    rw [namedViolations, ih, List.flatMap_cons]
    cases members.lookup e.1 <;> rfl

/-- The keyword for types is one rule. -/
theorem keyword_toldBy_types (t : TypeName) :
    (Keyword.types .four [t]).ToldBy [⟨[], .ofType t⟩] := by
  intro v
  rw [keywordViolations, demand]
  cases hType : t.admits .four v <;> simp [hType, Rule.breach?, Json.at?, Demand.problem?]

/-- The keyword for what must be there is one rule for each name, in the order of the names. -/
theorem keyword_toldBy_required (names : List String) :
    (Keyword.required names).ToldBy (names.map fun name => ⟨[], .hasMember name⟩) := by
  intro v
  have hRule : ∀ name, Rule.breach? ⟨[], .hasMember name⟩ v =
      ((Demand.hasMember name).problem? v).map fun p => ⟨[], p⟩ := fun _ => rfl
  simp only [List.filterMap_map, Function.comp_def, hRule]
  cases v with
  | object members =>
    rw [keywordViolations, List.filterMap_eq_flatMap_toList]
    refine List.flatMap_congr fun name _ => ?_
    rw [demand, Demand.problem?]
    cases (members.lookup name).isSome <;> rfl
  | _ => simp [keywordViolations, Demand.problem?]

/-- Members with their schemas, and with the rules that these tell of. -/
inductive NamedToldBy : List (String × Schema) → List (String × List Rule) → Prop
  | nil : NamedToldBy [] []
  | cons {name : String} {schema : Schema} {rules : List Rule} {named : List (String × Schema)}
    {ruled : List (String × List Rule)} (hHead : schema.ToldBy rules)
    (hRest : NamedToldBy named ruled) :
    NamedToldBy ((name, schema) :: named) ((name, rules) :: ruled)

/-- The keyword for members has the rules of their schemas, told with the names. -/
theorem keyword_toldBy_properties {named : List (String × Schema)}
    {ruled : List (String × List Rule)} (h : NamedToldBy named ruled) :
    (Keyword.properties named).ToldBy
      (ruled.flatMap fun f => f.2.map (Rule.under (.member f.1))) := by
  intro v
  rw [List.filterMap_flatMap]
  simp only [filterMap_breach?_under]
  cases v with
  | object members =>
    rw [keywordViolations, namedViolations_eq_flatMap]
    -- property by property, in the order of the schema
    induction h with
    | nil => rfl
    | @cons name schema rules named ruled hHead _ ih =>
      have hStep : (Json.object members).at? [.member name] = members.lookup name := by
        simp [Json.at?, Json.member?]
      rw [List.flatMap_cons, List.flatMap_cons, ih, hStep]
      simp only [hHead _]
  | _ => simp [keywordViolations, Json.at?, Json.member?]

theorem itemsViolations_nil (index : Nat) (schemas : List Schema) :
    itemsViolations [] index schemas = [] := by
  cases schemas <;> rfl

/-- The items from some index on are judged by the schemas one after the other. -/
theorem itemsViolations_drop {schemas : List Schema} {ruled : List (List Rule)}
    (h : List.Forall₂ ToldBy schemas ruled) (items : List Json) (index : Nat) :
    itemsViolations (items.drop index) index schemas =
      (ruled.zipIdx index).flatMap fun f =>
        (f.1.map (Rule.under (.item f.2))).filterMap (·.breach? (.array items)) := by
  induction h generalizing index with
  | nil => rw [itemsViolations]; rfl
  | @cons schema rules schemas ruled hTold _ ih =>
    have hStep : (Json.array items).at? [.item index] = items[index]? := by
      simp [Json.at?, Json.items?]
    rw [List.zipIdx_cons, List.flatMap_cons, ← ih, filterMap_breach?_under, hStep]
    cases hItems : items.drop index with
    | nil =>
      -- all further items are missing as well
      have hLength : items.length ≤ index := List.drop_eq_nil_iff.mp hItems
      rw [List.getElem?_eq_none hLength, List.drop_of_length_le (by omega), itemsViolations_nil,
        itemsViolations_nil]
      rfl
    | cons v rest =>
      have hHead : items[index]? = some v := by
        rw [← List.head?_drop, hItems, List.head?_cons]
      have hRest : items.drop (index + 1) = rest := by
        rw [← List.tail_drop, hItems, List.tail_cons]
      rw [hHead, hRest, itemsViolations, hTold v]
      rfl

/-- The keyword for first items has the rules of their schemas, told with the positions. -/
theorem keyword_toldBy_firstItems {schemas : List Schema} {ruled : List (List Rule)}
    (h : List.Forall₂ ToldBy schemas ruled) :
    (Keyword.firstItems schemas).ToldBy
      (ruled.zipIdx.flatMap fun f => f.1.map (Rule.under (.item f.2))) := by
  intro v
  rw [List.filterMap_flatMap]
  cases v with
  | array items => exact itemsViolations_drop h items 0
  | _ => simp [keywordViolations, Rule.breach?_under, Json.at?, Json.items?]

/-- Whatever the items are, if any will do. -/
theorem keyword_toldBy_items_free : (Keyword.items (.keywords [])).ToldBy [] := by
  intro v
  cases v with
  | array items => simp [keywordViolations, violations, keywordsViolations]
  | _ => rfl

/-- **Keywords.** A schema has the rules of its keywords, in their order. -/
theorem toldBy_keywords {list : List Keyword} {ruled : List (List Rule)}
    (h : List.Forall₂ Keyword.ToldBy list ruled) :
    (Schema.keywords list).ToldBy ruled.flatten := by
  intro v
  rw [violations, keywordsViolations_eq_flatMap]
  induction h with
  | nil => rfl
  | cons hHead _ ih => rw [List.flatMap_cons, ih, hHead, List.flatten_cons, List.filterMap_append]

-- ---------------------------------------------------------------------------
-- Schemas
-- ---------------------------------------------------------------------------

/-- The rule that a value is of a type. -/
def typeRules (t : TypeName) : List Rule := [⟨[], .ofType t⟩]

/-- A schema for one type has one rule. -/
theorem toldBy_typed (t : TypeName) : (typed t).ToldBy (typeRules t) :=
  toldBy_keywords (.cons (keyword_toldBy_types t) .nil)

/-- The rules of a list that starts with texts: those of its items, then that it is one. -/
def textsFirstRules (n : Nat) : List Rule :=
  (List.range n).map (fun i => ⟨[.item i], .ofType .string⟩) ++ [⟨[], .ofType .array⟩]

theorem toldBy_textsFirst (n : Nat) : (textsFirst n).ToldBy (textsFirstRules n) := by
  have hItems : List.Forall₂ ToldBy (List.replicate n (typed .string))
      (List.replicate n (typeRules .string)) := by
    induction n with
    | zero => exact .nil
    | succ n ih => exact .cons (toldBy_typed .string) ih
  have hKeywords := toldBy_keywords (.cons (keyword_toldBy_firstItems hItems)
    (.cons (keyword_toldBy_types .array) .nil))
  -- all the items have one schema, so only the positions tell the rules apart
  have hIndices : (List.replicate n (typeRules .string)).zipIdx =
      (List.range n).map fun i => (typeRules .string, i) := by
    apply List.ext_getElem <;> simp
  rw [hIndices, List.flatMap_map] at hKeywords
  simpa [textsFirst, textsFirstRules, typeRules, Rule.under, ← List.map_eq_flatMap] using hKeywords

/-- The rules of a table: those of its members, then what it must have, then that it is one. -/
def tableRules (ruled : List (String × List Rule)) (required : List String) : List Rule :=
  (ruled.flatMap fun f => f.2.map (Rule.under (.member f.1))) ++
    required.map (fun name => ⟨[], .hasMember name⟩) ++ [⟨[], .ofType .object⟩]

/-- A schema for objects has the rules of its members, then those for what must be there, then its
type. -/
theorem toldBy_table {named : List (String × Schema)} {ruled : List (String × List Rule)}
    (h : NamedToldBy named ruled) (required : List String) :
    (table named required).ToldBy (tableRules ruled required) := by
  have hKeywords := toldBy_keywords (.cons (keyword_toldBy_properties h)
    (.cons (keyword_toldBy_required required) (.cons (keyword_toldBy_types .object) .nil)))
  simpa [tableRules, table] using hKeywords

-- ---------------------------------------------------------------------------
-- Values that break no rule
-- ---------------------------------------------------------------------------

/-- No rule is broken. -/
def Obeys (rules : List Rule) (v : Json) : Prop := ∀ rule ∈ rules, rule.breach? v = none

/-- A schema finds nothing wrong exactly if no rule is breached. -/
theorem ToldBy.violations_eq_nil_iff {schema : Schema} {rules : List Rule}
    (h : schema.ToldBy rules) {v : Json} : violations v schema = [] ↔ Obeys rules v := by
  rw [h v, List.filterMap_eq_nil_iff, Obeys]

theorem obeys_append_iff {rules more : List Rule} {v : Json} :
    Obeys (rules ++ more) v ↔ Obeys rules v ∧ Obeys more v :=
  List.forall_mem_append

/-- Rules about what a step leads to are obeyed there, or nothing is there. -/
theorem obeys_under_iff {step : Step} {rules : List Rule} {v : Json} :
    Obeys (rules.map (Rule.under step)) v ↔ ∀ w, v.at? [step] = some w → Obeys rules w := by
  simp only [Obeys, List.forall_mem_map, Rule.breach?_under]
  cases v.at? [step] <;> simp

/-- Of an object, a rule asks for a member, and of nothing else does it ask for one. -/
theorem obeys_hasMember_iff {name : String} {v : Json} (h : v.IsObject) :
    Rule.breach? ⟨[], .hasMember name⟩ v = none ↔ (v.member? name).isSome = true := by
  obtain ⟨members, rfl⟩ := h
  rw [Json.member?]
  cases hMember : members.lookup name <;>
    simp [Rule.breach?, Json.at?, Demand.problem?, hMember]

/-- The rule of a type leaves the values of that type. -/
theorem obeys_typeRules {t : TypeName} {P : Json → Prop}
    (h : ∀ v, t.admits .four v = true ↔ P v) : Obeys (typeRules t) = P := by
  funext v
  rw [Obeys, typeRules, List.forall_mem_singleton, ← h v, eq_iff_iff]
  cases hType : t.admits .four v <;> simp [Rule.breach?, Json.at?, Demand.problem?, hType]

theorem obeys_object : Obeys (typeRules .object) = Json.IsObject :=
  obeys_typeRules fun v => by cases v <;> simp [TypeName.admits, Json.IsObject]

theorem obeys_list : Obeys (typeRules .array) = Json.IsList :=
  obeys_typeRules fun v => by cases v <;> simp [TypeName.admits, Json.IsList]

theorem obeys_text : Obeys (typeRules .string) = Json.IsText :=
  obeys_typeRules fun v => by cases v <;> simp [TypeName.admits, Json.IsText]

theorem obeys_truthValue : Obeys (typeRules .boolean) = Json.IsTruthValue :=
  obeys_typeRules fun v => by cases v <;> simp [TypeName.admits, Json.IsTruthValue]

/-- By draft 4 a float is no integer, however whole. -/
theorem obeys_integer : Obeys (typeRules .integer) = Json.IsInteger :=
  obeys_typeRules fun v => by
    cases v with
    | number n => cases n <;> simp [TypeName.admits, Json.IsInteger]
    | _ => simp [TypeName.admits, Json.IsInteger]

/-- To obey the rules for first items is to start with texts. -/
theorem obeys_textsFirst (n : Nat) : Obeys (textsFirstRules n) = Json.StartsWithTexts n := by
  funext v
  -- one rule for each of the first places, obeyed if there is a text or nothing at all
  have hItem : ∀ i, Rule.breach? ⟨[.item i], .ofType .string⟩ v = none ↔
      ∀ w, v.items?.bind (·[i]?) = some w → w.IsText := by
    intro i
    have hStep : v.at? [.item i] = v.items?.bind (·[i]?) := by
      rw [Json.at?]
      cases v.items?.bind (·[i]?) <;> rfl
    rw [← obeys_text, ← hStep, ← obeys_under_iff, Obeys, typeRules, List.map_singleton,
      List.forall_mem_singleton]
    rfl
  rw [textsFirstRules, Obeys, List.forall_mem_append, ← Obeys, ← Obeys, ← typeRules, obeys_list,
    eq_iff_iff]
  simp only [Obeys, List.forall_mem_map, hItem, List.mem_range]
  constructor
  · rintro ⟨hTexts, items, rfl⟩
    refine ⟨items, rfl, fun w hw => ?_⟩
    obtain ⟨i, hi, rfl⟩ := List.mem_take_iff_getElem.mp hw
    exact hTexts i (by omega) _ (List.getElem?_eq_getElem (by omega))
  · rintro ⟨items, rfl, hTexts⟩
    refine ⟨fun i hi w hw => hTexts w ?_, items, rfl⟩
    have hGet : (items.take n)[i]? = some w := by
      rw [List.getElem?_take_of_lt hi]
      exact hw
    exact List.mem_of_getElem? hGet

/-- **Objects.** To obey the rules for an object is to be one, to have what must be there, and to
permit of every named member what its rules do. -/
theorem obeys_table (ruled : List (String × List Rule)) (required : List String) :
    Obeys (tableRules ruled required) = fun v =>
      v.IsObject ∧ (∀ name ∈ required, (v.member? name).isSome = true) ∧
        ∀ f ∈ ruled, v.Permits f.1 (Obeys f.2) := by
  funext v
  have hStep : ∀ name, v.at? [.member name] = v.member? name := by
    intro name
    rw [Json.at?]
    cases v.member? name <;> rfl
  -- the rules below a member count only if the member is there
  have hMembers : Obeys (ruled.flatMap fun f => f.2.map (Rule.under (.member f.1))) v ↔
      ∀ f ∈ ruled, v.Permits f.1 (Obeys f.2) := by
    simp only [Json.Permits, ← hStep, ← obeys_under_iff]
    exact List.forall_mem_flatMap
  rw [tableRules, obeys_append_iff, obeys_append_iff, hMembers, ← typeRules, obeys_object,
    eq_iff_iff]
  constructor
  · rintro ⟨⟨hNamed, hRequired⟩, hIs⟩
    refine ⟨hIs, fun name hName => ?_, hNamed⟩
    exact (obeys_hasMember_iff hIs).mp (hRequired _ (List.mem_map_of_mem hName))
  · rintro ⟨hIs, hRequired, hNamed⟩
    refine ⟨⟨hNamed, List.forall_mem_map.mpr fun name hName => ?_⟩, hIs⟩
    exact (obeys_hasMember_iff hIs).mpr (hRequired name hName)

end Schema

end FoodScan
