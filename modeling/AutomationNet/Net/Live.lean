import AutomationNet.Net.Marking
import AutomationNet.Net.Readiness

/-!
# Live nets

A net together with its marking and the readiness of its transitions: what changes while a net
runs.

* `LiveNet` : the state, starting from `LiveNet.ofNet`
* `LiveNet.update` : one transition after a step of time
* `LiveNet.fire` : one transition moves its tokens, if it is enabled
* `LiveNet.setMark` : a mark is overridden from outside
* `LiveNet.restartPlaces`, `LiveNet.restartTransitions` : back to the start
* `FireError`, `MarkError` : why a firing or an override is refused
-/

namespace AutomationNet

structure LiveNet where
  net : Net
  marking : Marking
  readiness : Table Transition Readiness
  deriving DecidableEq

/-- What a firing moved: the arcs it took tokens from and those it gave tokens to. -/
structure Firing where
  transition : ElementId
  inputArcs : List ElementId
  outputArcs : List ElementId
  deriving DecidableEq, Repr

inductive FireError where
  | disabled (transition : ElementId)
  deriving DecidableEq, Repr

def FireError.message : FireError → String
  | .disabled id => "can't fire a disabled transition " ++ id

inductive MarkError where
  | unknownPlace (place : ElementId)
  | negative (place : ElementId) (mark : Int)
  | boolOverflow (place : ElementId) (mark : Int)
  deriving DecidableEq, Repr

def MarkError.message : MarkError → String
  | .unknownPlace id => "place " ++ id ++ " does not exist"
  | .negative id mark =>
    "the number of tokens of " ++ id ++ " can't be negative (got " ++ Numeral.ofInt mark ++ ")"
  | .boolOverflow id mark =>
    "can't insert more than one token in BOOL place " ++ id ++ " (got " ++ Numeral.ofInt mark ++ ")"

namespace LiveNet

/-- A net at its start: initial marks, and every delay still to wait. -/
def ofNet (net : Net) : LiveNet where
  net := net
  marking := net.initialMarking
  readiness := ⟨net.transitions.toList.map fun t => .fresh t.delay⟩

def ready (live : LiveNet) (t : Ref Transition) : Readiness :=
  (live.readiness.get? t).getD default

def isEnabled (live : LiveNet) (t : Ref Transition) : Bool := (live.ready t).enabled

def arcEnabled (live : LiveNet) (arc : Arc) : Bool := live.net.arcEnabled live.marking arc

def arcsEnabled (live : LiveNet) (t : Ref Transition) : Bool :=
  live.net.arcsEnabled live.marking t

def state (live : LiveNet) (t : Ref Transition) : TransitionState :=
  (live.ready t).state (live.net.transition t).delay

def update (live : LiveNet) (t : Ref Transition) (step : Duration) (inputs : Guard.Snapshot) :
    LiveNet :=
  let transition := live.net.transition t
  let guardHolds := transition.guard.holds inputs
  let updated := Readiness.update transition.delay step (live.arcsEnabled t) guardHolds
  { live with readiness := live.readiness.modify t updated }

/-- Whether a transition may fire: it is enabled, and its arcs still are. -/
def canFire (live : LiveNet) (t : Ref Transition) : Bool := live.isEnabled t && live.arcsEnabled t

def firing (live : LiveNet) (t : Ref Transition) : Firing where
  transition := (live.net.transition t).id
  inputArcs := (live.net.arcsOf t .input).map (·.id)
  outputArcs := (live.net.arcsOf t .output).map (·.id)

/-- The state after a transition has moved its tokens and started its delay over. -/
def fired (live : LiveNet) (t : Ref Transition) : LiveNet where
  net := live.net
  marking := live.net.move live.marking t
  readiness := live.readiness.modify t (.fired (live.net.transition t).delay)

def fire (live : LiveNet) (t : Ref Transition) : Except FireError (LiveNet × Firing) :=
  if live.canFire t then .ok (live.fired t, live.firing t)
  else .error (.disabled (live.net.transition t).id)

def clampings (live : LiveNet) (t : Ref Transition) : List Warning :=
  live.net.clampings live.marking t

def mark? (live : LiveNet) (id : ElementId) : Option Nat :=
  (live.net.placeRef? id).map live.marking.mark

/-- Overrides the mark of a place within what the place can hold. -/
def setMark (live : LiveNet) (id : ElementId) (mark : Int) : Except MarkError LiveNet :=
  match live.net.placeRef? id with
  | none => .error (.unknownPlace id)
  | some r =>
    if mark < 0 then .error (.negative id mark)
    else if (live.net.place r).type.capacity < mark.toNat then .error (.boolOverflow id mark)
    else .ok { live with marking := live.marking.set r mark.toNat }

def restartPlaces (live : LiveNet) : LiveNet :=
  { live with marking := live.net.initialMarking }

/-- Leaves no transition anything to wait for, and none enabled. -/
def restartTransitions (live : LiveNet) : LiveNet :=
  { live with readiness := live.readiness.map fun _ => .restarted }

end LiveNet

end AutomationNet
