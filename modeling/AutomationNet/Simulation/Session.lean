import AutomationNet.Simulation.Inputs
import AutomationNet.Simulation.Report

/-!
# Sessions

A session runs a net tick by tick. A tick fires what the tick before has chosen, reads the inputs,
and visits the transitions in a given order; the policy says what is chosen and when it fires.

* `Policy` : at most one transition per tick (`classic`), every transition as it is visited
  (`automation`), or the whole set enabled in the tick before (`visObj`)
* `Session` : the live net, the inputs, the clock and the policy
* `Session.start`, `Session.tick`, `Session.exit` : the life of a session
* `Session.setMark`, `Session.addToken` : marks overridden between ticks
* `Tick` : the outcome of a tick
-/

namespace AutomationNet

/-- A policy with what it has chosen for the next tick. -/
inductive Policy where
  | classic (candidate : Option (Ref Transition))
  | automation
  | visObj (pending : List (Ref Transition))
  deriving DecidableEq

namespace Policy

/-- A policy that has chosen nothing yet. -/
def start : FiringMode → Policy
  | .classic => .classic none
  | .automation => .automation
  | .visObj => .visObj []

def mode : Policy → FiringMode
  | .classic _ => .classic
  | .automation => .automation
  | .visObj _ => .visObj

def chosen : Policy → List (Ref Transition)
  | .classic candidate => candidate.toList
  | .automation => []
  | .visObj pending => pending

end Policy

inductive Event where
  | fire (transition : ElementId)
  | tick (number : Nat)
  | exit
  deriving DecidableEq, Repr

def Event.text : Event → String
  | .fire id => "fire " ++ id
  | .tick number => "tick " ++ Numeral.ofNat number
  | .exit => "exit"

inductive TickError where
  | fire (error : FireError)
  | clockOverflow
  deriving DecidableEq, Repr

structure Session where
  live : LiveNet
  policy : Policy
  history : InputHistory
  /-- The time that passes in a tick. -/
  step : Duration
  tick : Nat := 0
  time : Duration := 0
  deriving DecidableEq

structure Tick where
  session : Session
  report : TickReport
  events : List Event
  warnings : List Warning
  deriving DecidableEq

/-- How far a tick has come. -/
structure Progress where
  live : LiveNet
  fired : List Firing := []
  warnings : List Warning := []
  deriving DecidableEq

namespace Progress

def warn (p : Progress) (warnings : List Warning) : Progress :=
  { p with warnings := p.warnings ++ warnings }

def fire (p : Progress) (t : Ref Transition) : Except FireError Progress :=
  match p.live.fire t with
  | .error e => .error e
  | .ok (live, firing) =>
    .ok ⟨live, p.fired ++ [firing], p.warnings ++ p.live.clampings t⟩

/-- Fires the candidate of the tick before, unless a mark has been taken from it since. -/
def fireCandidate (p : Progress) : Option (Ref Transition) → Except FireError Progress
  | none => .ok p
  | some t =>
    if p.live.arcsEnabled t then p.fire t
    else .ok (p.warn [.candidateLost (p.live.net.transition t).id])

/-- Fires a pending transition, unless an earlier firing has taken a mark from it. -/
def firePending (p : Progress) (t : Ref Transition) : Except FireError Progress :=
  if p.live.arcsEnabled t then p.fire t else .ok p

def update (step : Duration) (inputs : Guard.Snapshot) (p : Progress) (t : Ref Transition) :
    Progress :=
  { p with live := p.live.update t step inputs }

/-- Updates a transition and fires it at once if that enables it. -/
def updateAndFire (step : Duration) (inputs : Guard.Snapshot) (p : Progress) (t : Ref Transition) :
    Except FireError Progress :=
  let p := p.update step inputs t
  if p.live.isEnabled t then p.fire t else .ok p

end Progress

namespace Session

/-- A session at its start, with the values that the accessor gives first. -/
def start (net : Net) (mode : FiringMode) (initial : InputValues) (step : Duration) : Session where
  live := (LiveNet.ofNet net).restartPlaces
  policy := .start mode
  history := .start net.inputNames initial
  step := step

def net (s : Session) : Net := s.live.net

/-! ## Ticks -/

def fireChosen (s : Session) : Except FireError Progress :=
  let p : Progress := { live := s.live }
  match s.policy with
  | .classic candidate => p.fireCandidate candidate
  | .automation => .ok p
  | .visObj pending => pending.foldlM Progress.firePending p

def visit (s : Session) (order : List (Ref Transition)) (inputs : Guard.Snapshot) (p : Progress) :
    Except FireError Progress :=
  match s.policy with
  | .automation => order.foldlM (Progress.updateAndFire s.step inputs) p
  | _ => .ok (order.foldl (Progress.update s.step inputs) p)

/-- The choice for the next tick, once every transition has been visited. -/
def choose (policy : Policy) (order : List (Ref Transition)) (live : LiveNet) : Policy :=
  match policy with
  | .classic _ => .classic (order.find? live.isEnabled)
  | .automation => .automation
  | .visObj _ => .visObj (order.filter live.isEnabled)

/-- The places whose mark differs from an earlier marking, with their marks. -/
def changedMarks (live : LiveNet) (earlier : Marking) : List (ElementId × Nat) :=
  live.net.places.enumerate.filterMap fun (r, place) =>
    if live.marking.mark r = earlier.mark r then none else some (place.id, live.marking.mark r)

/-- The report of a tick on the state it leaves. -/
def report (live : LiveNet) (earlier : Marking) (fired : List Firing) (tick : Nat)
    (time : Duration) : TickReport where
  tick := tick
  time := time
  changed := changedMarks live earlier
  fired := fired
  transitions := live.net.transitions.enumerate.map fun (r, t) => (t.id, live.state r)
  guards := if live.net.simulation.guardDebug then
      live.net.transitions.enumerate.map fun (r, t) => (t.id, (live.ready r).guardHolds)
    else []
  arcs := if live.net.simulation.arcDebug then
      live.net.arcs.toList.map fun arc => (arc.id, live.arcEnabled arc)
    else []

/-- The net and the input history after a tick has fired and visited all it does, if nothing fails:
inputs are read between what was chosen and the visits. -/
def advance (s : Session) (order : List (Ref Transition)) (values : InputValues) :
    Except FireError (Progress × InputHistory) := do
  let fired ← s.fireChosen
  let history := s.history.refresh values
  let visited ← s.visit order history.snapshot (fired.warn (s.history.warnings values))
  return (visited, history)

/-- One tick, with the order in which it visits the transitions and the values its inputs have. -/
def runTick (s : Session) (order : List (Ref Transition)) (values : InputValues) :
    Except TickError Tick := do
  let (done, history) ← (s.advance order values).mapError .fire
  let time := s.time + s.step
  if Duration.maxDuration < time then .error .clockOverflow
  else
    let tick := s.tick + 1
    return {
      session := {
        live := done.live
        policy := choose s.policy order done.live
        history, step := s.step, tick, time }
      report := report done.live s.live.marking done.fired tick time
      events := done.fired.map (fun firing => .fire firing.transition) ++ [.tick tick]
      warnings := done.warnings }

/-! ## Between ticks -/

/-- Back to the initial marks, with nothing to wait for and nothing chosen. -/
def exit (s : Session) : Session :=
  { s with live := s.live.restartPlaces.restartTransitions, policy := .start s.policy.mode }

def mark? (s : Session) (place : ElementId) : Option Nat := s.live.mark? place

def setMark (s : Session) (place : ElementId) (mark : Int) : Except MarkError Session := do
  return { s with live := ← s.live.setMark place mark }

/-- Adds a token to a place. A mark is overridden by a signed 64-bit number, so no more than that
can be reached. -/
def addToken (s : Session) (place : ElementId) : Except MarkError Session :=
  match s.mark? place with
  | none => .error (.unknownPlace place)
  | some mark => s.setMark place (min ((mark : Int) + 1) Numeral.maxInt64)

end Session

end AutomationNet
