import AutomationNet.Net.Basic

/-!
# Arcs in structured text

A place is a variable of the program, an `INT` or a `BOOL`. What an arc asks of its place is a test
of that variable, what it does to it an assignment.

* `Test`, `Assignment` : the forms that occur, with their texts
* `Arc.test?` : the test of an arc, none for an output into a count
* `Arc.assignment` : the assignment of an arc when its transition fires
-/

namespace AutomationNet

namespace StructuredText

/-- A test of a variable. A count is set when it is not zero. -/
inductive Test where
  | isSet (name : String)
  | isClear (name : String)
  | atLeast (name : String) (bound : Nat)
  | below (name : String) (bound : Nat)
  deriving DecidableEq, Repr

def Test.text : Test → String
  | .isSet name => name
  | .isClear name => "NOT " ++ name
  | .atLeast name bound => name ++ " >= " ++ Numeral.ofNat bound
  | .below name bound => name ++ " < " ++ Numeral.ofNat bound

inductive Assignment where
  | add (name : String) (amount : Nat)
  | subtract (name : String) (amount : Nat)
  | set (name : String)
  | clear (name : String)
  deriving DecidableEq, Repr

def Assignment.text : Assignment → String
  | .add name amount => name ++ " := " ++ name ++ " + " ++ Numeral.ofNat amount ++ ";"
  | .subtract name amount => name ++ " := " ++ name ++ " - " ++ Numeral.ofNat amount ++ ";"
  | .set name => name ++ " := TRUE;"
  | .clear name => name ++ " := FALSE;"

end StructuredText

namespace Arc

open StructuredText

/-- The test of an arc at its place. A flag, and a count that is asked for one token, is tested by
its name alone. -/
def test? (arc : Arc) (place : Place) : Option Test :=
  let byName := place.type = .bool ∨ arc.weight = 1
  match arc.kind with
  | .input => some (if byName then .isSet place.name else .atLeast place.name arc.weight)
  | .test => some (if byName then .isSet place.name else .atLeast place.name arc.weight)
  | .inhibitor => some (if byName then .isClear place.name else .below place.name arc.weight)
  | .output => if place.type = .bool then some (.isClear place.name) else none

/-- The assignment of an arc to its place; every arc but an input gives tokens. -/
def assignment (arc : Arc) (place : Place) : Assignment :=
  match place.type, arc.kind with
  | .int, .input => .subtract place.name arc.weight
  | .int, _ => .add place.name arc.weight
  | .bool, .input => .clear place.name
  | .bool, _ => .set place.name

end Arc

end AutomationNet
