import MathTyping.Json

/-!
# Tables of a TOML document

A document builds a tree of tables key by key.  How a table came about decides
what may still be added to it: a table that a header names is complete once the
next header begins, one that dotted keys made only grows by dotted keys, and
one that a longer header merely passed through may still get a header of its
own.
-/

namespace MathTyping

namespace Toml

/-- How a table came about. -/
inductive Origin where
  | implied
  | dotted
  | header
deriving DecidableEq, Repr

/-- A node of the tree: a finished value, a table, or a list of tables. -/
inductive Node where
  | value (value : Json)
  | table (origin : Origin) (members : List (Text × Node))
  | tables (elements : List (List (Text × Node)))

/-- The members of a table. -/
abbrev Members := List (Text × Node)

/-- Change the member of a name, which may be missing; none to refuse. -/
def updateMember (name : Text) (change : Option Node → Option Node) : Members → Option Members
  | [] => (change none).map fun node => [(name, node)]
  | m :: ms =>
      if m.1 = name then (change (some m.2)).map fun node => (name, node) :: ms
      else (updateMember name change ms).map (m :: ·)

/-- Change the last element of a list. -/
def updateLast (change : α → Option α) : List α → Option (List α)
  | [] => none
  | [a] => (change a).map fun b => [b]
  | a :: as => (updateLast change as).map (a :: ·)

/-- Change the table at the end of a path, making the tables on the way.  Dotted
keys may not enter a table that a header names. -/
def changeAt (made : Origin) (change : Origin → Members → Option Members) :
    List Text → Origin → Members → Option Members
  | [], origin, ms => change origin ms
  | key :: path, _, ms =>
      updateMember key (fun
        | none => (changeAt made change path made []).map (Node.table made)
        | some (.value _) => none
        | some (.table origin inner) =>
            -- A header's table is complete; headers themselves may pass through it.
            if made = .dotted ∧ origin = .header then none
            else (changeAt made change path origin inner).map (Node.table origin)
        -- The last element is the one that is still being written.
        | some (.tables elements) =>
            (updateLast (changeAt made change path .header) elements).map Node.tables) ms

/-- Set a new key of a table. -/
def setNew (key : Text) (value : Json) (ms : Members) : Option Members :=
  updateMember key (fun
    | none => some (.value value)
    | some _ => none) ms

/-- Set a dotted key of a table; only dotted keys may share a table. -/
def setDotted (path : List Text) (key : Text) (value : Json) (origin : Origin) (ms : Members) :
    Option Members :=
  changeAt .dotted (fun origin ms =>
    if origin = .dotted ∨ path = [] then setNew key value ms else none) path origin ms

/-- Open a table by its header. -/
def openTable (key : Text) (ms : Members) : Option Members :=
  updateMember key (fun
    | none => some (.table .header [])
    | some (.table .implied inner) => some (.table .header inner)
    | some _ => none) ms

/-- Open the next table of a list of tables by its header. -/
def openElement (key : Text) (ms : Members) : Option Members :=
  updateMember key (fun
    | none => some (.tables [[]])
    | some (.tables elements) => some (.tables (elements ++ [[]]))
    | some _ => none) ms

mutual

/-- The value of a node. -/
def Node.toJson : Node → Json
  | .value j => j
  | .table _ ms => .object (membersToJson ms)
  | .tables elements => .array (elementsToJson elements)

/-- The values of the members of a table. -/
def membersToJson : List (Text × Node) → List (Text × Json)
  | [] => []
  | (k, n) :: ms => (k, n.toJson) :: membersToJson ms

/-- The values of a list of tables. -/
def elementsToJson : List (List (Text × Node)) → List Json
  | [] => []
  | ms :: rest => .object (membersToJson ms) :: elementsToJson rest

end

end Toml

end MathTyping
