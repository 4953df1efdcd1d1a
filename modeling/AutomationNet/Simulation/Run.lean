import AutomationNet.Simulation.Control
import AutomationNet.Simulation.Session

/-!
# Runs

A run drives a session through ticks, one step of its loop at a time, until the session is stopped or
a tick fails. Whenever it ends, the session is taken back to its start.

* `Run` : the session, its control and where the loop stands
* `Run.again` : another run of the same session
* `Run.next?` : the next step, none while the loop sleeps and after its end
-/

namespace AutomationNet

structure Run where
  session : Session
  control : Control := {}
  point : LoopPoint := .reading
  /-- How many ticks this run has handed over. -/
  ticks : Nat := 0
  report : Option TickReport := none
  failure : Option TickError := none
  /-- What the last step told a renderer. -/
  events : List Event := []
  warnings : List Warning := []
  deriving DecidableEq

namespace Run

def goTo (run : Run) (control : Control) (point : LoopPoint) : Run :=
  { run with control, point, events := [], warnings := [] }

/-- The session is taken back to its start and stays stopped. -/
def close (run : Run) (failure : Option TickError) : Run :=
  { run with
    session := run.session.exit
    control := { run.control with state := .stopped }
    point := .finished
    failure
    events := [.exit]
    warnings := [] }

def ticked (run : Run) (tick : Tick) (point : LoopPoint) : Run :=
  { run with
    session := tick.session
    point
    ticks := run.ticks + 1
    report := some tick.report
    events := tick.events
    warnings := tick.warnings }

def again (run : Run) : Run := { session := run.session, control := run.control }

/-- The next step. Only the step out of `ticking` looks at the order and the values. -/
def next? (order : List (Ref Transition)) (values : InputValues) (run : Run) : Option Run :=
  match run.point.next? run.control with
  | none => none
  | some (control, point) =>
    match run.point with
    | .ticking _ =>
      match run.session.runTick order values with
      | .ok tick => some (run.ticked tick point)
      | .error e => some (run.close (some e))
    | .closing => some (run.close none)
    | _ => some (run.goTo control point)

end Run

end AutomationNet
