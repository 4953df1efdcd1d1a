/-!
# TOML documents

A document is a table of tables. How a table came about decides what may still be added to it: a
header opens a table once, a dotted key extends only what dotted keys have made, and nothing extends
an inline table.

* `Toml.Value`, `Toml.Origin` : the values, and how a table came about
* `Toml.Value.within` : a change inside the table at a path
* `Toml.openTable`, `Toml.openElement` : the two kinds of headers
* `Toml.assign` : a key with its value, in the table of a header
-/

namespace AutomationNet.Toml

/-- How a table came about. -/
inductive Origin where
  | header
  /-- By a header further down. -/
  | implied
  | dotted
  | inline
  deriving DecidableEq, Repr

inductive Value where
  | integer (value : Int)
  /-- Any other value without parts; settings have no use for one. -/
  | scalar
  | array (items : List Value)
  | table (origin : Origin) (entries : List (String × Value))
  /-- The tables that the same double header has opened. -/
  | elements (tables : List (List (String × Value)))
  deriving Inhabited

abbrev Entries := List (String × Value)

def setKey (key : String) (value : Value) : Entries → Entries
  | [] => [(key, value)]
  | (k, v) :: rest => if k = key then (key, value) :: rest else (k, v) :: setKey key value rest

/-- Changes the table at a path, making tables that are not there yet. Keys of a header pass through
the last element of an array of tables; dotted keys pass through no table with a header of its
own. -/
def within (made : Origin) (change : Origin → Entries → Option Entries) :
    (path : List String) → Origin → Entries → Option Entries
  | [], origin, entries => change origin entries
  | key :: path, _, entries =>
    match entries.lookup key with
    | none => (within made change path made []).map fun inner =>
      setKey key (.table made inner) entries
    | some (.table origin inner) =>
      if origin = .inline ∨ (made = .dotted ∧ origin = .header) then none
      else (within made change path origin inner).map fun inner =>
        setKey key (.table origin inner) entries
    | some (.elements tables) =>
      match tables.getLast? with
      | none => none
      | some last => (within made change path .header last).map fun last =>
        setKey key (.elements (tables.dropLast ++ [last])) entries
    | some _ => none

/-- A header opens a table that has at most been implied before. -/
def openTable (path : List String) (key : String) (root : Entries) : Option Entries :=
  within .implied (fun _ entries =>
    match entries.lookup key with
    | none => some (setKey key (.table .header []) entries)
    | some (.table .implied inner) => some (setKey key (.table .header inner) entries)
    | some _ => none) path .header root

/-- A double header adds a table to those it has opened before. -/
def openElement (path : List String) (key : String) (root : Entries) : Option Entries :=
  within .implied (fun _ entries =>
    match entries.lookup key with
    | none => some (setKey key (.elements [[]]) entries)
    | some (.elements tables) => some (setKey key (.elements (tables ++ [[]])) entries)
    | some _ => none) path .header root

/-- A key gets its only value. Behind dots it stands in a table that dotted keys have made. -/
def assignKey (path : List String) (key : String) (value : Value) (origin : Origin)
    (entries : Entries) : Option Entries :=
  within .dotted (fun origin entries =>
    if (path.isEmpty ∨ origin = .dotted) ∧ (entries.lookup key).isNone then
      some (setKey key value entries)
    else none) path origin entries

def assign (header path : List String) (key : String) (value : Value) (root : Entries) :
    Option Entries :=
  within .implied (assignKey path key value) header .header root

end AutomationNet.Toml
