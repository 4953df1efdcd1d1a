import AutomationNet.Net.Basic

/-!
# Assembling nets

A net is assembled from its description element by element: inputs, places, transitions, arcs, in
the order of the description. The first fault ends the assembly and names the element it is about.

* `AssemblyError` : the faults, `AssemblyError.message` their texts and `AssemblyError.element` the
  element to show
* `readMark`, `readWeight`, `readDelay`, `readPriority` : the numbers of the elements
* `Draft` : what has been assembled so far
* `priorityOrder` : the transitions as their priorities rank them
* `Net.assemble` : the net of a description
-/

namespace AutomationNet

/-- What keeps a description from being a net. -/
inductive AssemblyError where
  | invalidMark (place : ElementId) (text : String)
  | negativeMark (place : ElementId)
  | boolMarkOutOfRange (place : ElementId) (mark : Nat)
  | invalidWeight (arc : ElementId) (text : String)
  | nonPositiveWeight (arc : ElementId)
  | invalidDelay (transition : ElementId) (text : String)
  | negativeDelay (transition : ElementId)
  | invalidPriority (transition : ElementId) (text : String)
  | badGuard (transition : ElementId) (error : Guard.Error)
  | unknownPlace (arc place : ElementId)
  | unknownTransition (arc transition : ElementId)
  | duplicateId (id : ElementId)
  | duplicateInput (name : String)
  deriving DecidableEq, Repr

namespace AssemblyError

def message : AssemblyError → String
  | .invalidMark id text =>
    "invalid initial mark \"" ++ text ++ "\" of " ++ id ++ ": expected integer"
  | .negativeMark id => "invalid initial mark of " ++ id ++ ": can't be negative"
  | .boolMarkOutOfRange id mark =>
    "invalid initial mark " ++ Numeral.ofNat mark ++ " of BOOL place " ++ id ++ ": must be 0 or 1"
  | .invalidWeight id text =>
    "invalid arc weight \"" ++ text ++ "\" of " ++ id ++ ": expected integer"
  | .nonPositiveWeight id => "invalid arc weight of " ++ id ++ ": must be greater than zero"
  | .invalidDelay id text =>
    "invalid transition delay \"" ++ text ++ "\" of " ++ id ++ ": expected a number of seconds"
  | .negativeDelay id => "invalid transition delay of " ++ id ++ ": can't be negative"
  | .invalidPriority id text =>
    "invalid transition priority \"" ++ text ++ "\" of " ++ id ++ ": expected a number"
  | .badGuard id error => "invalid guard expression of " ++ id ++ ": " ++ error.message
  | .unknownPlace arc place => "arc " ++ arc ++ " references unknown place " ++ place
  | .unknownTransition arc transition =>
    "arc " ++ arc ++ " references unknown transition " ++ transition
  | .duplicateId id => "element id " ++ id ++ " is used more than once"
  | .duplicateInput name => "input " ++ name ++ " is declared more than once"

/-- The element the error is about, or the name of an input. -/
def element : AssemblyError → ElementId
  | .invalidMark id _ => id
  | .negativeMark id => id
  | .boolMarkOutOfRange id _ => id
  | .invalidWeight id _ => id
  | .nonPositiveWeight id => id
  | .invalidDelay id _ => id
  | .negativeDelay id => id
  | .invalidPriority id _ => id
  | .badGuard id _ => id
  | .unknownPlace arc _ => arc
  | .unknownTransition arc _ => arc
  | .duplicateId id => id
  | .duplicateInput name => name

end AssemblyError

/-! ## Numbers -/

/-- The initial mark of a place: a signed 64-bit number within what the type can count. -/
def readMark (place : PlaceDescription) : Except AssemblyError Nat :=
  match Numeral.int64? (Blank.trim place.initialMark) with
  | none => .error (.invalidMark place.id place.initialMark)
  | some mark =>
    if mark < 0 then .error (.negativeMark place.id)
    else if place.type = .bool ∧ 1 < mark then .error (.boolMarkOutOfRange place.id mark.toNat)
    else .ok mark.toNat

/-- The weight of an arc: a positive signed 64-bit number. -/
def readWeight (arc : ArcDescription) : Except AssemblyError Nat :=
  match Numeral.int64? (Blank.trim arc.weight) with
  | none => .error (.invalidWeight arc.id arc.weight)
  | some weight =>
    if weight ≤ 0 then .error (.nonPositiveWeight arc.id) else .ok weight.toNat

/-- The delay of a transition in seconds, a blank text standing for none. -/
def readDelay (transition : TransitionDescription) : Except AssemblyError Duration :=
  let text := Blank.trim transition.delay
  let invalid := .error (.invalidDelay transition.id transition.delay)
  if text.isEmpty then .ok 0
  else
    match Binary64.ofText? text with
    | none => invalid
    | some seconds =>
      if !seconds.isFinite then invalid
      else if seconds.lt .zero then .error (.negativeDelay transition.id)
      else (Duration.ofSeconds? seconds).elim invalid .ok

/-- The priority of a transition, zero unless the text says otherwise. -/
def readPriority (transition : TransitionDescription) : Except AssemblyError Binary64 :=
  let text := Blank.trim (transition.priority.getD "")
  if text.isEmpty then .ok .zero
  else
    match (Binary64.ofText? text).filter (·.isFinite) with
    | none => .error (.invalidPriority transition.id (String.ofList text))
    | some priority => .ok priority

/-! ## Elements -/

/-- What has been assembled so far, with the identifiers in use. -/
structure Draft where
  ids : List ElementId := []
  places : Table Place Place := .empty
  transitions : Table Transition Transition := .empty
  arcs : Table Arc Arc := .empty
  attachments : Table Transition Attachments := .empty
  placeKeys : Keys Place := {}
  transitionKeys : Keys Transition := {}

namespace Draft

def register (draft : Draft) (id : ElementId) : Except AssemblyError Draft :=
  if id ∈ draft.ids then .error (.duplicateId id) else .ok { draft with ids := id :: draft.ids }

def addPlace (draft : Draft) (p : PlaceDescription) : Except AssemblyError Draft := do
  let initialMark ← readMark p
  let draft ← draft.register p.id
  let place : Place := { id := p.id, name := p.name, type := p.type, initialMark }
  let (places, r) := draft.places.push place
  return { draft with places, placeKeys := draft.placeKeys.insert p.id r }

def addTransition (inputs : List String) (draft : Draft) (t : TransitionDescription) :
    Except AssemblyError Draft := do
  let delay ← readDelay t
  let priority ← readPriority t
  let guard ← (Guard.compile inputs t.guardText?).mapError (.badGuard t.id)
  let draft ← draft.register t.id
  let transition : Transition := { id := t.id, name := t.name, guard, delay, priority }
  let (transitions, r) := draft.transitions.push transition
  return { draft with
    transitions
    attachments := (draft.attachments.push {}).1
    transitionKeys := draft.transitionKeys.insert t.id r }

def addArc (draft : Draft) (a : ArcDescription) : Except AssemblyError Draft := do
  let weight ← readWeight a
  let place ← (draft.placeKeys.get? a.place).elim (.error (.unknownPlace a.id a.place)) .ok
  let transition ← (draft.transitionKeys.get? a.transition).elim
    (.error (.unknownTransition a.id a.transition)) .ok
  let draft ← draft.register a.id
  let arc : Arc := { id := a.id, place, transition, kind := a.kind, weight }
  let (arcs, r) := draft.arcs.push arc
  return { draft with arcs, attachments := draft.attachments.modify transition (·.attach r a.kind) }

end Draft

/-- The first name that comes a second time is an error. -/
def checkInputs (seen : List String) : List String → Except AssemblyError Unit
  | [] => .ok ()
  | name :: rest =>
    if name ∈ seen then .error (.duplicateInput name) else checkInputs (name :: seen) rest

/-! ## Nets -/

def Table.priorityKey (transitions : Table Transition Transition) (r : Ref Transition) : Int :=
  ((transitions.get? r).getD default).priority.totalKey

/-- The transitions by descending priority; equal ones stay in the order of the table. -/
def priorityOrder (transitions : Table Transition Transition) : List (Ref Transition) :=
  transitions.refs.mergeSort fun r s => transitions.priorityKey s ≤ transitions.priorityKey r

/-- The net of a description, or its first fault. -/
def Net.assemble (description : NetDescription) : Except AssemblyError Net := do
  let inputs := description.inputNames
  checkInputs [] inputs
  let draft ← description.places.foldlM Draft.addPlace {}
  let draft ← description.transitions.foldlM (Draft.addTransition inputs) draft
  let draft ← description.arcs.foldlM Draft.addArc draft
  return {
    places := draft.places
    transitions := draft.transitions
    arcs := draft.arcs
    attachments := draft.attachments
    placeKeys := draft.placeKeys
    transitionKeys := draft.transitionKeys
    order := priorityOrder draft.transitions
    inputs := description.inputs
    simulation := description.simulation }

end AutomationNet
