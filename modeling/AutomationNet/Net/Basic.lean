import AutomationNet.Description.Basic
import AutomationNet.Duration
import AutomationNet.Guard.Basic
import AutomationNet.Net.Table
import AutomationNet.Warning

/-!
# Nets

An assembled net: the elements of a description with their numbers read, their references resolved
and their guards compiled. A net never changes; marks and timers are kept beside it.

* `Place`, `Transition`, `Arc`, `Net` : the net and its elements
* `Attachments` : the arcs at a transition, by kind
* `Keys` : the positions of elements by their identifiers
* `Net.place`, `Net.transition` : an element by its position
* `Net.arcRefs`, `Net.arcsOf`, `Net.attached` : the arcs of a transition
* `Net.placeRef?`, `Net.transitionRef?` : the position of an identifier
* `Net.warnings` : places without arcs
-/

namespace AutomationNet

structure Place where
  id : ElementId
  name : String
  type : DataType
  initialMark : Nat
  deriving DecidableEq, Inhabited

structure Transition where
  id : ElementId
  name : String
  guard : Guard
  delay : Duration
  priority : Binary64
  deriving DecidableEq, Inhabited

instance : ElementKind Place := ⟨'p'⟩

instance : ElementKind Transition := ⟨'t'⟩

structure Arc where
  id : ElementId
  place : Ref Place
  transition : Ref Transition
  kind : ArcKind
  weight : Nat
  deriving DecidableEq

instance : ElementKind Arc := ⟨'a'⟩

/-- The arcs at a transition by kind, those of a kind in the order of their declaration. -/
structure Attachments where
  inputs : List (Ref Arc) := []
  outputs : List (Ref Arc) := []
  tests : List (Ref Arc) := []
  inhibitors : List (Ref Arc) := []
  deriving DecidableEq

namespace Attachments

/-- One arc more, behind the others of its kind. -/
def attach (a : Attachments) (arc : Ref Arc) : ArcKind → Attachments
  | .input => { a with inputs := a.inputs ++ [arc] }
  | .output => { a with outputs := a.outputs ++ [arc] }
  | .test => { a with tests := a.tests ++ [arc] }
  | .inhibitor => { a with inhibitors := a.inhibitors ++ [arc] }

def ofKind (a : Attachments) : ArcKind → List (Ref Arc)
  | .input => a.inputs
  | .output => a.outputs
  | .test => a.tests
  | .inhibitor => a.inhibitors

@[simp] theorem ofKind_attach (a : Attachments) (arc : Ref Arc) (kind kind' : ArcKind) :
    (a.attach arc kind).ofKind kind' =
      a.ofKind kind' ++ if kind = kind' then [arc] else [] := by
  cases kind <;> cases kind' <;> simp [attach, ofKind]

@[simp] theorem ofKind_empty (kind : ArcKind) : ({} : Attachments).ofKind kind = [] := by
  cases kind <;> rfl

end Attachments

/-- The positions of elements by their identifiers, the latest entry first. -/
structure Keys (κ : Type) where
  entries : List (ElementId × Ref κ) := []
  deriving DecidableEq

namespace Keys

variable {κ : Type}

def get? (keys : Keys κ) (id : ElementId) : Option (Ref κ) := keys.entries.lookup id

/-- Another position, which replaces an earlier one of the same identifier. -/
def insert (keys : Keys κ) (id : ElementId) (r : Ref κ) : Keys κ := ⟨(id, r) :: keys.entries⟩

@[simp] theorem get?_empty (id : ElementId) : ({} : Keys κ).get? id = none := rfl

theorem get?_insert (keys : Keys κ) (id other : ElementId) (r : Ref κ) :
    (keys.insert id r).get? other = if other = id then some r else keys.get? other := by
  rw [get?, insert, List.lookup_cons]
  by_cases h : other = id
  · simp [h]
  · rw [beq_false_of_ne h, if_neg h, get?]

end Keys

structure Net where
  places : Table Place Place := .empty
  transitions : Table Transition Transition := .empty
  arcs : Table Arc Arc := .empty
  attachments : Table Transition Attachments := .empty
  placeKeys : Keys Place := {}
  transitionKeys : Keys Transition := {}
  /-- The transitions by descending priority; equal ones in the order of their declaration. -/
  order : List (Ref Transition) := []
  inputs : List InputDescription := []
  simulation : SimulationConfig := {}
  deriving DecidableEq

namespace Net

def place (net : Net) (r : Ref Place) : Place := (net.places.get? r).getD default

def transition (net : Net) (r : Ref Transition) : Transition :=
  (net.transitions.get? r).getD default

def inputNames (net : Net) : List String := net.inputs.map (·.name)

/-- The positions of the arcs of one kind at a transition, in the order of their declaration. -/
def arcRefs (net : Net) (t : Ref Transition) (kind : ArcKind) : List (Ref Arc) :=
  ((net.attachments.get? t).getD {}).ofKind kind

/-- The arcs of one kind at a transition, in the order of their declaration. -/
def arcsOf (net : Net) (t : Ref Transition) (kind : ArcKind) : List Arc :=
  (net.arcRefs t kind).filterMap net.arcs.get?

/-- The arcs at a transition: inputs, outputs, tests, then inhibitors. -/
def attached (net : Net) (t : Ref Transition) : List Arc :=
  net.arcsOf t .input ++ net.arcsOf t .output ++ net.arcsOf t .test ++ net.arcsOf t .inhibitor

def placeRef? (net : Net) (id : ElementId) : Option (Ref Place) := net.placeKeys.get? id

def transitionRef? (net : Net) (id : ElementId) : Option (Ref Transition) :=
  net.transitionKeys.get? id

/-- A warning for every place without arcs. -/
def warnings (net : Net) : List Warning :=
  net.places.enumerate.filterMap fun (r, place) =>
    if net.arcs.toList.any fun arc => arc.place == r then none
    else some (.unconnected place.id place.name)

end Net

end AutomationNet
