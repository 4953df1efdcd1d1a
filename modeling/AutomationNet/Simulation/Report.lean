import AutomationNet.Json.Written
import AutomationNet.Net.Live

/-!
# Tick reports

What a tick tells about itself: the marks it changed, the firings, the state of every transition and,
if the net asks for them, the outcome of every guard and every arc.

* `TickReport` : the report
* `TickReport.timeText`, `TickReport.text` : as a line to read
* `TickReport.toJson`, `TickReport.line` : as a value and as a line of JSON
-/

namespace AutomationNet

structure TickReport where
  tick : Nat
  time : Duration
  /-- The places whose mark differs from the start of the tick, with the new mark. -/
  changed : List (ElementId × Nat) := []
  fired : List Firing := []
  transitions : List (ElementId × TransitionState) := []
  /-- The outcome of every guard, if the net asks for it. -/
  guards : List (ElementId × Bool) := []
  /-- Whether each arc is enabled, if the net asks for it. -/
  arcs : List (ElementId × Bool) := []
  deriving DecidableEq, Repr

namespace TickReport

def firedIds (r : TickReport) : List ElementId := r.fired.map (·.transition)

def enabledIds (r : TickReport) : List ElementId :=
  (r.transitions.filter fun t => t.2 == .enabled).map (·.1)

/-- The time in seconds with two places. -/
def timeText (r : TickReport) : String := r.time.toSeconds.fixed 2

/-- The time, the number of the tick, and whatever fired or changed. -/
def text (r : TickReport) : String :=
  let fired := if r.fired.isEmpty then "" else " fired " ++ ", ".intercalate r.firedIds
  let marks := if r.changed.isEmpty then ""
    else " marks " ++ ", ".intercalate (r.changed.map fun c => c.1 ++ "=" ++ Numeral.ofNat c.2)
  "[" ++ r.timeText ++ "s] tick " ++ Numeral.ofNat r.tick ++ fired ++ marks

def idsToJson (ids : List ElementId) : Json := .array (ids.map .string)

end TickReport

def Firing.toJson (f : Firing) : Json :=
  .object [("id", .string f.transition), ("inputArcs", TickReport.idsToJson f.inputArcs),
    ("outputArcs", TickReport.idsToJson f.outputArcs)]

namespace TickReport

def toJson (r : TickReport) : Json :=
  .object [("tick", .ofNat r.tick), ("simTime", .number (.double r.time.toSeconds)),
    ("changedMarks", .object (r.changed.map fun c => (c.1, .ofNat c.2))),
    ("fired", .array (r.fired.map (·.toJson))),
    ("transitions", .array (r.transitions.map fun t =>
      .object [("id", .string t.1), ("state", .string t.2.name)])),
    ("guards", .object (r.guards.map fun g => (g.1, .bool g.2))),
    ("arcs", .object (r.arcs.map fun a => (a.1, .bool a.2)))]

def line (r : TickReport) : String := r.toJson.compact

end TickReport

end AutomationNet
