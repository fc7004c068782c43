import FoodScan.Toml.Value

/-!
# Building tables

The lines of a file add to its tables one by one. A table can be opened by its header
once; tables on the way to it come into being by themselves and may be opened later.
Tables made by dotted keys are extended by dotted keys only, and an array of tables gets
a new last table with every header.

`Tables` is the state between two lines; every operation gives nothing when a line
breaks these rules.
-/

namespace FoodScan.Toml

/-- What a key of a table under construction stands for. -/
inductive Node where
  | value (v : Value)
  /-- A table: whether it came into being without a header, and whether by a dotted key. -/
  | table (implicit dotted : Bool) (entries : List (String × Node))
  /-- An array of tables. -/
  | tables (items : List (List (String × Node)))

namespace Node

mutual

/-- The value that a node has when the file ends. -/
def finish : Node → Value
  | .value v => v
  | .table _ _ entries => .table (finishEntries entries)
  | .tables items => .array (finishTables items)

def finishEntries : List (String × Node) → List (String × Value)
  | [] => []
  | (key, node) :: rest => (key, node.finish) :: finishEntries rest

def finishTables : List (List (String × Node)) → List Value
  | [] => []
  | entries :: rest => .table (finishEntries entries) :: finishTables rest

end

end Node

/-- The entries of a table under construction, oldest first. -/
abbrev Nodes := List (String × Node)

namespace Nodes

/-- Puts a node in the place of the one under `key`. -/
def replace (key : String) (node : Node) (nodes : Nodes) : Nodes :=
  nodes.map fun e => if e.1 = key then (key, node) else e

/-- Takes the node under `key` away. -/
def remove (key : String) (nodes : Nodes) : Nodes := nodes.filter fun e => e.1 ≠ key

/-- Goes down a path of keys and changes the table at its end with `change`, which is told
whether dotted keys made that table. Missing tables are made. A dotted path passes only through
tables without a header; any path enters the last table of an array. -/
def changeAt (byDots : Bool) (change : Bool → Nodes → Option (Nodes × α)) :
    List String → Bool → Nodes → Option (Nodes × α)
  | [], dotted, nodes => change dotted nodes
  | key :: path, _, nodes =>
    match nodes.lookup key with
    | none => do
      let (inner, a) ← changeAt byDots change path byDots []
      return (nodes ++ [(key, .table true byDots inner)], a)
    | some (.value _) => none
    | some (.table implicit dotted inner) =>
      if byDots && !implicit then none
      else do
        let (inner, a) ← changeAt byDots change path dotted inner
        return (replace key (.table implicit dotted inner) nodes, a)
    | some (.tables items) =>
      -- a path through an array of tables goes on in the last of them
      match items.getLast? with
      | none => none
      | some last => do
        let (last, a) ← changeAt byDots change path false last
        return (replace key (.tables (items.dropLast ++ [last])) nodes, a)

/-- Gives the key at the end of a dotted path a value. The key must be new, and a table made by
dotted keys takes only dotted keys, any other table only at the end of a plain one. -/
def assign (path : List String) (key : String) (v : Value) (nodes : Nodes) : Option Nodes := do
  let (nodes, ()) ← changeAt true (fun dotted nodes =>
    if dotted == path.isEmpty then none
    else if (nodes.lookup key).isSome then none
    else some (nodes ++ [(key, .value v)], ())) path false nodes
  return nodes

end Nodes

/-- The table of an inline table's pairs. -/
def inlineTable (pairs : List (List String × String × Value)) : Option Value := do
  let nodes ← pairs.foldlM (fun nodes p => Nodes.assign p.1 p.2.1 p.2.2 nodes) []
  return .table (Node.finishEntries nodes)

/-- Where the open table goes when it is closed. -/
inductive Place where
  | root
  | table (path : List String) (key : String)
  | arrayItem (path : List String) (key : String)

/-- The tables of a file between two lines: the closed ones, and the open one. -/
structure Tables where
  closed : Nodes
  current : Nodes
  place : Place

namespace Tables

/-- The tables before the first line. -/
def start : Tables := ⟨[], [], .root⟩

/-- Puts the open table into its place. -/
def close (t : Tables) : Option Nodes :=
  match t.place with
  | .root => some t.current
  | .table path key => do
    let (nodes, ()) ← Nodes.changeAt false (fun _ nodes =>
      some (nodes ++ [(key, .table false false t.current)], ())) path false t.closed
    return nodes
  | .arrayItem path key => do
    let (nodes, ()) ← Nodes.changeAt false (fun _ nodes =>
      match nodes.lookup key with
      | none => some (nodes ++ [(key, .tables [t.current])], ())
      | some (.tables items) =>
        some (Nodes.replace key (.tables (items ++ [t.current])) nodes, ())
      | some _ => none) path false t.closed
    return nodes

/-- Opens the table of a header: a new one, or one that came into being without a header or
dotted key. -/
def openTable (path : List String) (key : String) (t : Tables) : Option Tables := do
  let closed ← t.close
  -- a table that only lies on the way of others is taken out and goes on as the open one
  let (closed, current) ← Nodes.changeAt false (fun _ nodes =>
    match nodes.lookup key with
    | none => some (nodes, [])
    | some (.table true false inner) => some (Nodes.remove key nodes, inner)
    | some _ => none) path false closed
  return ⟨closed, current, .table path key⟩

/-- Opens the next table of an array of tables. -/
def openArrayItem (path : List String) (key : String) (t : Tables) : Option Tables := do
  let closed ← t.close
  let (closed, ()) ← Nodes.changeAt false (fun _ nodes =>
    match nodes.lookup key with
    | none => some (nodes, ())
    | some (.tables _) => some (nodes, ())
    | some _ => none) path false closed
  return ⟨closed, [], .arrayItem path key⟩

/-- Gives a key of the open table a value. -/
def assign (path : List String) (key : String) (v : Value) (t : Tables) : Option Tables := do
  return { t with current := ← Nodes.assign path key v t.current }

/-- The table of the file. -/
def finish (t : Tables) : Option Value := do return .table (Node.finishEntries (← t.close))

end Tables

end FoodScan.Toml
