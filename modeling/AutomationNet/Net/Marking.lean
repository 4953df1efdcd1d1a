import AutomationNet.Net.Basic

/-!
# Markings

A marking tells how many tokens each place holds. An arc asks something of the mark of its place
and, if it is an input or an output, changes that mark when its transition fires.

* `DataType.capacity`, `DataType.consume`, `DataType.produce` : marks of the two types
* `ArcKind.allows` : what an arc asks of a mark
* `Net.arcEnabled`, `Net.arcsEnabled` : one arc, and all arcs of a transition, on a marking
* `Net.move` : the marking after a transition has moved its tokens
* `Net.clampings` : the warnings of a move that takes more than a place holds
-/

namespace AutomationNet

/-! ## Marks -/

namespace DataType

def capacity : DataType → Nat
  | .int => Numeral.maxNat64
  | .bool => 1

/-- The mark after an input arc: a count is lowered as far as it goes, a flag is cleared. -/
def consume : DataType → (weight mark : Nat) → Nat
  | .int, weight, mark => mark - weight
  | .bool, _, _ => 0

/-- The mark after an output arc: a count is raised as far as it goes, a flag is set. -/
def produce : DataType → (weight mark : Nat) → Nat
  | .int, weight, mark => min (mark + weight) Numeral.maxNat64
  | .bool, _, _ => 1

end DataType

/-- What an arc asks of the mark of its place: inputs and tests at least the weight, inhibitors
less than it, outputs a flag that is not set yet. -/
def ArcKind.allows : ArcKind → DataType → (weight mark : Nat) → Bool
  | .input, _, weight, mark => weight ≤ mark
  | .test, _, weight, mark => weight ≤ mark
  | .inhibitor, _, weight, mark => mark < weight
  | .output, .int, _, _ => true
  | .output, .bool, _, mark => mark == 0

/-! ## Markings -/

abbrev Marking := Table Place Nat

def Marking.mark (m : Marking) (r : Ref Place) : Nat := (m.get? r).getD 0

namespace Net

def initialMarking (net : Net) : Marking := ⟨net.places.toList.map (·.initialMark)⟩

def arcEnabled (net : Net) (m : Marking) (arc : Arc) : Bool :=
  arc.kind.allows (net.place arc.place).type arc.weight (m.mark arc.place)

/-- Whether every arc of a transition is enabled. -/
def arcsEnabled (net : Net) (m : Marking) (t : Ref Transition) : Bool :=
  (net.attached t).all (net.arcEnabled m)

def consume (net : Net) (m : Marking) (arc : Arc) : Marking :=
  m.modify arc.place ((net.place arc.place).type.consume arc.weight)

def produce (net : Net) (m : Marking) (arc : Arc) : Marking :=
  m.modify arc.place ((net.place arc.place).type.produce arc.weight)

/-- The marking after a transition has moved its tokens: all inputs first, then all outputs. -/
def move (net : Net) (m : Marking) (t : Ref Transition) : Marking :=
  (net.arcsOf t .output).foldl net.produce ((net.arcsOf t .input).foldl net.consume m)

/-- A warning if an input arc takes more tokens than a count holds. -/
def clamping? (net : Net) (m : Marking) (arc : Arc) : Option Warning :=
  let place := net.place arc.place
  if place.type = .int ∧ m.mark arc.place < arc.weight then
    some (.clamped place.id (m.mark arc.place) arc.weight)
  else none

/-- The warnings while the given input arcs take their tokens one after the other. -/
def clampingsOf (net : Net) (m : Marking) : List Arc → List Warning
  | [] => []
  | arc :: rest => (net.clamping? m arc).toList ++ clampingsOf net (net.consume m arc) rest

def clampings (net : Net) (m : Marking) (t : Ref Transition) : List Warning :=
  net.clampingsOf m (net.arcsOf t .input)

end Net

end AutomationNet
