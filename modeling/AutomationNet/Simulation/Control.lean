/-!
# Controlling a session

A session is started, paused, stepped and stopped through handles that share one state with the loop
that runs it. Every access to the state is one atomic step, on either side; a command that may let
the loop go on also leaves a wake-up, of which one at most is stored.

* `RunState`, `Control` : the shared state
* `Command`, `Control.apply` : the commands of a handle
* `LoopPoint` : where the loop stands between two atomic steps
* `LoopPoint.next?` : the next step of the loop, none while it sleeps and after its end
-/

namespace AutomationNet

inductive RunState where
  | running
  /-- Paused after the tick in flight. -/
  | pausing
  | paused
  /-- Running for a single tick. -/
  | stepping
  /-- Stopped after the tick in flight. -/
  | stopping
  | stopped
  deriving DecidableEq, Repr, Inhabited

def RunState.name : RunState → String
  | .running => "Running"
  | .pausing => "Pausing"
  | .paused => "Paused"
  | .stepping => "Stepping"
  | .stopping => "Stopping"
  | .stopped => "Stopped"

structure Control where
  state : RunState := .paused
  /-- A wake-up that the loop has not taken yet. -/
  wake : Bool := false
  deriving DecidableEq, Repr

inductive Command where
  | start
  | pause
  | step
  | stop
  deriving DecidableEq, Repr

def Command.name : Command → String
  | .start => "start"
  | .pause => "pause"
  | .step => "step"
  | .stop => "stop"

/-- A command, which changes nothing unless the state is one it applies to. -/
def Control.apply (control : Control) : Command → Control
  | .start => if control.state = .paused then ⟨.running, true⟩ else control
  | .pause => if control.state = .running then { control with state := .pausing } else control
  | .step => if control.state = .paused then ⟨.stepping, true⟩ else control
  | .stop => if control.state = .stopped then control else ⟨.stopping, true⟩

inductive LoopPoint where
  | reading
  /-- Has read `pausing`, about to set `paused`. -/
  | halting
  /-- Has read `paused`, waits for a wake-up. -/
  | sleeping
  /-- Has read `running` or `stepping`, about to run a tick. -/
  | ticking (single : Bool)
  /-- Has run a single tick, about to pause unless told otherwise. -/
  | settling
  | reporting
  /-- Has read `stopping` or `stopped`, about to set `stopped`. -/
  | closing
  | finished
  deriving DecidableEq, Repr

namespace LoopPoint

/-- Where the loop goes after reading a state. -/
def ofState : RunState → LoopPoint
  | .running => .ticking false
  | .stepping => .ticking true
  | .pausing => .halting
  | .paused => .sleeping
  | .stopping => .closing
  | .stopped => .closing

/-- The next step of the loop, as long as its ticks do not fail. -/
def next? (control : Control) : LoopPoint → Option (Control × LoopPoint)
  | .reading => some (control, .ofState control.state)
  | .halting => some ({ control with state := .paused }, .reading)
  | .sleeping => if control.wake then some ({ control with wake := false }, .reading) else none
  | .ticking single => some (control, if single then .settling else .reporting)
  | .settling =>
    some (if control.state = .stepping then { control with state := .paused } else control,
      .reporting)
  | .reporting => some (control, .reading)
  | .closing => some ({ control with state := .stopped }, .finished)
  | .finished => none

end LoopPoint

end AutomationNet
