import MixerRouting.Toml.Value

/-!
# Tables put together from lines

The keys of a settings text say where a value belongs: a table may be written
under a header, come into being because a longer header or a dotted key names
it on its way, or be one of several under the same header. Which of these may
be added to later depends on how the table came into being, so a table under
construction remembers it.
-/
namespace MixerRouting.Toml

/-- How a table came into being. -/
inductive Origin where
  /-- Under a header of its own, or in braces. -/
  | header
  /-- On the way of a longer header. -/
  | implied
  /-- On the way of a dotted key. -/
  | dotted
  deriving DecidableEq, Repr

/-- A value, a table under construction, or a row of tables of which the last one is open. -/
inductive Node where
  | value (v : TomlValue)
  | table (origin : Origin) (fields : List (String × Node))
  | tables (earlier : List Node) (last : Node)

namespace Node

def fields : Node → List (String × Node)
  | .table _ fields => fields
  | _ => []

def origin? : Node → Option Origin
  | .table origin _ => some origin
  | _ => none

def find? (n : Node) (key : String) : Option Node := n.fields.lookup key

/-- Puts a field into a table, in place of the one with the same key. -/
def put (n : Node) (key : String) (child : Node) : Node :=
  match n with
  | .table origin fields =>
    if (fields.lookup key).isSome then
      .table origin (fields.map fun field => if field.1 = key then (key, child) else field)
    else .table origin (fields ++ [(key, child)])
  | n => n

/-- Changes the table at the end of a path. Missing tables are made with the given origin; a
dotted key does not enter tables that have a header. -/
def within (origin : Origin) (f : Node → Option Node) : List String → Node → Option Node
  | [], n => f n
  | key :: path, n =>
    match n.find? key with
    | none => (within origin f path (.table origin [])).map fun child => n.put key child
    | some (.value _) => none
    | some (.tables earlier last) =>
      (within origin f path last).map fun last => n.put key (.tables earlier last)
    | some child =>
      if origin = .dotted ∧ child.origin? = some .header then none
      else (within origin f path child).map fun child => n.put key child

/-- Enters a value under a dotted key; the key must be new and its table open to dotted keys. -/
def enter (path : List String) (v : TomlValue) (n : Node) : Option Node := do
  let key ← path.getLast?
  let way := path.dropLast
  n.within .dotted (fun t =>
    if !way.isEmpty ∧ t.origin? ≠ some .dotted then none
    else if (t.find? key).isSome then none
    else some (t.put key (.value v))) way

/-- Enters the values of a table in order. -/
def enterAll (n : Node) (pairs : List (List String × TomlValue)) : Option Node :=
  pairs.foldlM (fun n pair => n.enter pair.1 pair.2) n

/-- Fills the table under a header. It is new or was only named by longer headers. -/
def enterTable (path : List String) (pairs : List (List String × TomlValue)) (n : Node) :
    Option Node := do
  let key ← path.getLast?
  n.within .implied (fun t => do
    let table ← match t.find? key with
      | none => some (Node.table .header [])
      | some (.table .implied fields) => some (Node.table .header fields)
      | some _ => none
    return t.put key (← table.enterAll pairs)) path.dropLast

/-- Adds a table to the row of tables under a header. -/
def enterRow (path : List String) (pairs : List (List String × TomlValue)) (n : Node) :
    Option Node := do
  let key ← path.getLast?
  n.within .implied (fun t => do
    let table ← (Node.table .header []).enterAll pairs
    match t.find? key with
    | none => return t.put key (.tables [] table)
    | some (.tables earlier last) => return t.put key (.tables (earlier ++ [last]) table)
    | some _ => none) path.dropLast

mutual

def toValue : Node → TomlValue
  | .value v => v
  | .table _ fields => .table (toFields fields)
  | .tables earlier last => .array (toItems earlier ++ [toValue last])

def toFields : List (String × Node) → List (String × TomlValue)
  | [] => []
  | (key, n) :: rest => (key, toValue n) :: toFields rest

def toItems : List Node → List TomlValue
  | [] => []
  | n :: rest => toValue n :: toItems rest

end

end Node

/-- The table that pairs in braces make up. -/
def inlineTable? (pairs : List (List String × TomlValue)) : Option TomlValue :=
  ((Node.table .header []).enterAll pairs).map Node.toValue

end MixerRouting.Toml
