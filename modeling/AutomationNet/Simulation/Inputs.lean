import AutomationNet.Guard.Basic
import AutomationNet.Warning

/-!
# Input histories

A session asks an accessor for the values of its inputs when it starts and once in every tick. The
history keeps the current and the previous value of every declared input; an input that the accessor
leaves out keeps its value, and is warned about once for each gap.

* `InputValues` : what an accessor gives
* `InputHistory` : one track for each declared input, in the order of declaration
* `InputHistory.start`, `InputHistory.refresh` : the first values, and the next ones
* `InputHistory.warnings` : the warnings of a refresh
* `InputHistory.snapshot` : the values as a guard sees them
-/

namespace AutomationNet

abbrev InputValues := List (String × Binary64)

/-- Replaces the value of a name in its place, or adds it at the end. -/
def upsert (key : String) (value : α) : List (String × α) → List (String × α)
  | [] => [(key, value)]
  | (k, v) :: rest =>
    if k = key then (key, value) :: rest else (k, v) :: upsert key value rest

structure InputTrack where
  name : String
  current : Binary64
  previous : Binary64
  /-- The gap that the input is in has been warned about. -/
  missing : Bool := false
  deriving DecidableEq, Repr

abbrev InputHistory := List InputTrack

namespace InputTrack

/-- Both values are the first one, so that the first tick sees no edge. -/
def start (initial : InputValues) (name : String) : InputTrack :=
  let value := (initial.lookup name).getD .zero
  { name, current := value, previous := value }

/-- The current value becomes the previous one and is replaced, if there is a new one. -/
def refresh (values : InputValues) (track : InputTrack) : InputTrack :=
  match values.lookup track.name with
  | some value =>
    { name := track.name, current := value, previous := track.current, missing := false }
  | none =>
    { name := track.name, current := track.current, previous := track.current, missing := true }

/-- A warning if the input is left out for the first time in a row. -/
def warning? (values : InputValues) (track : InputTrack) : Option Warning :=
  if (values.lookup track.name).isNone && !track.missing then
    some (.missingInput track.name track.current)
  else none

end InputTrack

namespace InputHistory

def start (names : List String) (initial : InputValues) : InputHistory :=
  names.map (.start initial)

def refresh (values : InputValues) (history : InputHistory) : InputHistory :=
  history.map (.refresh values)

def warnings (values : InputValues) (history : InputHistory) : List Warning :=
  history.filterMap (InputTrack.warning? values)

def value? (name : String) (history : InputHistory) : Option Binary64 :=
  (history.find? fun track => track.name == name).map (·.current)

def snapshot (history : InputHistory) : Guard.Snapshot where
  current := history.map (·.current)
  previous := history.map (·.previous)

end InputHistory

end AutomationNet
