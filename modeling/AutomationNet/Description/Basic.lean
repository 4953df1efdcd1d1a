import AutomationNet.Json.Basic
import AutomationNet.Number.DecimalText
import AutomationNet.Text.Blank
import AutomationNet.Text.Numeral

/-!
# Net descriptions

The exchange form of a net: places, transitions, arcs and inputs, each with the identifier that the
editor gave it. Marks, weights, delays and priorities are texts here; assembling the net reads and
checks them. Whatever else the editor wrote into a record is kept beside it.

* `DataType`, `ArcKind`, `FiringMode`, `PriorityMode` : the fixed vocabularies, with their names
* `PlaceDescription`, `TransitionDescription`, `ArcDescription`, `InputDescription`,
  `SimulationConfig`, `NetDescription` : the records
* `InputDescription.initialNumber` : the number an input starts with
-/

namespace AutomationNet

/-- The identifier of an element, as the editor assigned it. -/
abbrev ElementId := String

/-- The type of a place or an input: a count, or one of two values. -/
inductive DataType where
  | int
  | bool
  deriving DecidableEq, Repr, Inhabited

def DataType.name : DataType → String
  | .int => "INT"
  | .bool => "BOOL"

/-- What an arc does to its place and asks of it. -/
inductive ArcKind where
  | input
  | output
  | test
  | inhibitor
  deriving DecidableEq, Repr, Inhabited

def ArcKind.name : ArcKind → String
  | .input => "Input"
  | .output => "Output"
  | .test => "Test"
  | .inhibitor => "Inhibitor"

/-- The policy by which a session picks the transitions that fire. -/
inductive FiringMode where
  | classic
  | automation
  | visObj
  deriving DecidableEq, Repr, Inhabited

def FiringMode.name : FiringMode → String
  | .classic => "Classic"
  | .automation => "Automation"
  | .visObj => "VisObj"

/-- Whether a tick visits the transitions by priority or in a drawn order. -/
inductive PriorityMode where
  | fixed
  | random
  deriving DecidableEq, Repr, Inhabited

def PriorityMode.name : PriorityMode → String
  | .fixed => "fixed"
  | .random => "random"

structure PlaceDescription where
  id : ElementId
  name : String
  type : DataType
  initialMark : String
  /-- What else the editor wrote into the record, by key. -/
  extra : Json.Members := []
  deriving DecidableEq

structure TransitionDescription where
  id : ElementId
  name : String
  /-- Seconds. -/
  delay : String := "0"
  guard : Option String := none
  priority : Option String := none
  extra : Json.Members := []
  deriving DecidableEq

structure ArcDescription where
  id : ElementId
  place : ElementId
  transition : ElementId
  kind : ArcKind
  weight : String
  extra : Json.Members := []
  deriving DecidableEq

structure InputDescription where
  name : String
  type : DataType
  initialValue : String := ""
  description : String := ""
  deriving DecidableEq

structure SimulationConfig where
  mode : FiringMode := .classic
  /-- Whether a report tells the state of every arc. -/
  arcDebug : Bool := false
  /-- Whether a report tells the outcome of every guard. -/
  guardDebug : Bool := false
  priorityMode : PriorityMode := .fixed
  deriving DecidableEq, Inhabited

structure NetDescription where
  name : String := ""
  preScript : String := ""
  places : List PlaceDescription := []
  transitions : List TransitionDescription := []
  arcs : List ArcDescription := []
  inputs : List InputDescription := []
  simulation : SimulationConfig := {}
  extra : Json.Members := []
  deriving DecidableEq

/-- A place whose initial mark is given as a number. -/
def PlaceDescription.ofMark (id : ElementId) (name : String) (type : DataType) (mark : Int) :
    PlaceDescription :=
  { id, name, type, initialMark := Numeral.ofInt mark }

/-- An arc whose weight is given as a number. -/
def ArcDescription.ofWeight (id place transition : ElementId) (kind : ArcKind) (weight : Int) :
    ArcDescription :=
  { id, place, transition, kind, weight := Numeral.ofInt weight }

namespace TransitionDescription

def withDelay (t : TransitionDescription) (seconds : Binary64) : TransitionDescription :=
  { t with delay := seconds.toText }

def withGuard (t : TransitionDescription) (guard : String) : TransitionDescription :=
  { t with guard := some guard }

def withPriority (t : TransitionDescription) (priority : Binary64) : TransitionDescription :=
  { t with priority := some priority.toText }

/-- The guard, a blank one counting as none. -/
def guardText? (t : TransitionDescription) : Option String :=
  t.guard.filter fun text => !Blank.isBlankText text

end TransitionDescription

/-- The number an input starts with: a truth value or what spells a number, or else `0`. -/
def InputDescription.initialNumber (input : InputDescription) : Binary64 :=
  let text := Blank.trim input.initialValue
  let word := text.map Char.toLower
  if word = ['t', 'r', 'u', 'e'] then .one
  else if word = ['f', 'a', 'l', 's', 'e'] then .zero
  else (Binary64.ofText? text).getD .zero

def NetDescription.inputNames (net : NetDescription) : List String := net.inputs.map (·.name)

end AutomationNet
