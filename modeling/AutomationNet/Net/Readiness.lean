import AutomationNet.Duration

/-!
# Readiness of transitions

A transition may fire once its guard and its arcs have held for as long as its delay. An update
counts the delay down while they hold and starts it over when they do not; only an update that finds
nothing left to wait enables the transition.

* `Readiness` : the timer of a transition and the outcome of its last update
* `Readiness.fresh`, `Readiness.update`, `Readiness.fired`, `Readiness.restarted` : its life
* `Readiness.state` : what a report tells of it
-/

namespace AutomationNet

structure Readiness where
  remaining : Duration
  enabled : Bool := false
  /-- Whether the guard held in the last update. -/
  guardHolds : Bool := false
  deriving DecidableEq, Repr, Inhabited

/-- What a report tells of a transition. -/
inductive TransitionState where
  | enabled
  | waitingDelay
  | disabled
  deriving DecidableEq, Repr, Inhabited

def TransitionState.name : TransitionState → String
  | .enabled => "Enabled"
  | .waitingDelay => "WaitingDelay"
  | .disabled => "Disabled"

namespace Readiness

/-- A transition with its whole delay before it. -/
def fresh (delay : Duration) : Readiness := { remaining := delay }

def update (delay step : Duration) (arcsHold guardHolds : Bool) (r : Readiness) : Readiness :=
  if arcsHold && guardHolds then
    if r.remaining = 0 then { remaining := 0, enabled := true, guardHolds }
    else { remaining := r.remaining - step, enabled := false, guardHolds }
  else { remaining := delay, enabled := false, guardHolds }

/-- A firing starts the delay over. It leaves the outcome of the last update as it is. -/
def fired (delay : Duration) (r : Readiness) : Readiness := { r with remaining := delay }

/-- A restart leaves nothing to wait for. -/
def restarted : Readiness := { remaining := 0 }

/-- Some of the delay has passed, but it has not been used up in a firing. -/
def isWaiting (delay : Duration) (r : Readiness) : Bool := r.remaining < delay

def state (delay : Duration) (r : Readiness) : TransitionState :=
  if r.enabled then .enabled else if r.isWaiting delay then .waitingDelay else .disabled

end Readiness

end AutomationNet
