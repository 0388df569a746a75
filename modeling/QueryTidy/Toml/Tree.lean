import QueryTidy.Toml.Value

/-!
The tables of a document while it is being read. How a table came to be decides what may still be
done to it: one that was only named on the way to another may get a header later, one made by dotted
keys grows by dotted keys alone, and a value is never extended.
-/

set_option autoImplicit false
set_option relaxedAutoImplicit false

namespace QueryTidy.Toml

/-- How a table came to be. -/
inductive Origin
  /-- By a header of its own. -/
  | header
  /-- On the way to another table's header. -/
  | passage
  /-- By a dotted key. -/
  | dotted
deriving DecidableEq

/-- What a key leads to: a value, a table, or an array of tables, the newest last. -/
inductive Node
  | value (v : Value)
  | table (origin : Origin) (members : List (Text × Node))
  | tables (items : List (List (Text × Node)))

abbrev Members := List (Text × Node)

/-- Changes the table at the end of a path, with its origin in view. Tables that do not exist yet
are made; dotted keys do not lead through a table that has a header of its own. -/
def Members.update (dotted : Bool) (change : Origin → Members → Option Members) :
    List Text → Origin → Members → Option Members
  | [], origin, members => change origin members
  | key :: path, _, members =>
    match members.lookup key with
    | none =>
      let origin : Origin := if dotted then .dotted else .passage
      (update dotted change path origin []).map fun inner => place key (.table origin inner) members
    | some (.value _) => none
    | some (.table origin inner) =>
      if dotted ∧ origin = .header then none
      else
        (update dotted change path origin inner).map fun inner =>
          place key (.table origin inner) members
    | some (.tables items) =>
      match items.getLast? with
      | none => none
      | some last =>
        (update dotted change path .header last).map fun last =>
          place key (.tables (items.dropLast ++ [last])) members

def Members.add (key : Text) (node : Node) (members : Members) : Option Members :=
  if (members.lookup key).isSome then none else some (place key node members)

/-- Assigns a value to a key, which is the last of a list of keys: behind dots, in a table that
dotted keys made. -/
def Members.assign (keys : List Text) (v : Value) (members : Members) : Option Members :=
  match keys.getLast? with
  | none => none
  | some last =>
    if keys.length = 1 then members.add last (.value v)
    else
      members.update true
        (fun origin inner => if origin = .dotted then inner.add last (.value v) else none)
        keys.dropLast .header

def Members.openTable (keys : List Text) (members : Members) : Option Members :=
  match keys.getLast? with
  | none => none
  | some last =>
    members.update false
      (fun _ inner =>
        match inner.lookup last with
        | none => some (place last (.table .header []) inner)
        | some (.table .passage known) => some (place last (.table .header known) inner)
        | _ => none)
      keys.dropLast .header

def Members.openItem (keys : List Text) (members : Members) : Option Members :=
  match keys.getLast? with
  | none => none
  | some last =>
    members.update false
      (fun _ inner =>
        match inner.lookup last with
        | none => some (place last (.tables [[]]) inner)
        | some (.tables items) => some (place last (.tables (items ++ [[]])) inner)
        | _ => none)
      keys.dropLast .header

mutual

def Node.close : Node → Value
  | .value v => v
  | .table _ members => .table (closeMembers members)
  | .tables items => .array (closeItems items)

def closeMembers : List (Text × Node) → List (Text × Value)
  | [] => []
  | (key, node) :: rest => (key, node.close) :: closeMembers rest

def closeItems : List (List (Text × Node)) → List Value
  | [] => []
  | members :: rest => .table (closeMembers members) :: closeItems rest

end

def inlineTable? (assignments : List (List Text × Value)) : Option Value :=
  (assignments.foldlM (fun members (keys, v) => Members.assign keys v members) []).map
    fun members => .table (closeMembers members)

end QueryTidy.Toml
