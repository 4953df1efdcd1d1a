import AutomationNet.Description.Json
import AutomationNet.Ron.Reading
import AutomationNet.Ron.Written

/-!
# Net descriptions as RON

The net, its places, transitions and arcs are maps with quoted keys, as they may have other members;
inputs and the simulation settings are records. The names of the fixed vocabularies are bare words.

* `NetDescription.toRon` : the value a description is written as, `NetDescription.renderRon` its text
* `NetDescription.ofRon?` : the description that a value holds
* `NetDescription.parseRon?` : the description that a text spells
-/

namespace AutomationNet

open Ron (Value Extensions)

/-! ## Writing -/

/-- The entries of a map with its other members behind them. -/
def Ron.Value.mapOf (fields : List (String × Value)) (extra : Json.Members) : Value :=
  .map ((fields.map fun field => (.string field.1, field.2)) ++ Value.ofMembers extra)

def optionalRon (key : String) : Option String → List (String × Value)
  | none => []
  | some text => [(key, .some (.string text))]

def PlaceDescription.toRon (p : PlaceDescription) : Value :=
  .mapOf [("id", .string p.id), ("name", .string p.name), ("placeType", .word p.type.name),
    ("initialMark", .string p.initialMark)] p.extra

def TransitionDescription.toRon (t : TransitionDescription) : Value :=
  .mapOf ([("id", .string t.id), ("name", .string t.name), ("delay", .string t.delay)] ++
    optionalRon "guard" t.guard ++ optionalRon "priority" t.priority) t.extra

def ArcDescription.toRon (a : ArcDescription) : Value :=
  .mapOf [("id", .string a.id), ("placeId", .string a.place), ("transId", .string a.transition),
    ("arcType", .word a.kind.name), ("weight", .string a.weight)] a.extra

def InputDescription.toRon (i : InputDescription) : Value :=
  .record none [("name", .string i.name), ("type", .word i.type.name),
    ("initialValue", .string i.initialValue), ("description", .string i.description)]

def SimulationConfig.toRon (c : SimulationConfig) : Value :=
  .record none [("simMode", .word c.mode.name), ("arcDebug", .bool c.arcDebug),
    ("guardDebug", .bool c.guardDebug), ("priorityMode", .word c.priorityMode.name)]

def NetDescription.toRon (net : NetDescription) : Value :=
  .mapOf [("name", .string net.name), ("preScript", .string net.preScript),
    ("places", .list (net.places.map (·.toRon))),
    ("transitions", .list (net.transitions.map (·.toRon))),
    ("arcs", .list (net.arcs.map (·.toRon))),
    ("inputs", .list (net.inputs.map (·.toRon))),
    ("simConfig", net.simulation.toRon)] net.extra

def NetDescription.renderRon (net : NetDescription) : String := net.toRon.pretty

/-! ## Reading -/

namespace Ron.Value

def asString? : Value → Option String
  | .string s => Option.some s
  | _ => Option.none

def asBool? : Value → Option Bool
  | .bool b => Option.some b
  | _ => Option.none

/-- A bare word out of a fixed table. -/
def asWord? (table : List (String × α)) : Value → Option α
  | .word name => table.lookup name
  | _ => Option.none

def asList? (read : Value → Option α) : Value → Option (List α)
  | .list items => items.mapM read
  | _ => Option.none

/-- A value inside `Some`, or alone if the extension allows it. -/
def asOption? (extensions : Extensions) (read : Value → Option α) : Value → Option (Option α)
  | .none => Option.some Option.none
  | .some value => (read value).map Option.some
  | value => if extensions.implicitSome then (read value).map Option.some else Option.none

/-- The members of a map with string keys: its fields, each at most once, and the others. -/
def asMembers? (fields : List String) :
    List (Value × Value) → Option (List (String × Value) × Json.Members)
  | [] => Option.some ([], [])
  | (key, value) :: rest => do
    let key ← asString? key
    let (known, extra) ← asMembers? fields rest
    if key ∈ fields then
      if (known.lookup key).isSome then Option.none
      else Option.some ((key, value) :: known, extra)
    else
      let value ← toJson? value
      Option.some (known, (key, value) :: extra)

def asMap? (fields : List String) : Value → Option (List (String × Value) × Json.Members)
  | .map entries => (asMembers? fields entries).map fun (known, extra) =>
    (known, Json.sorted extra)
  | _ => Option.none

/-- Whether each field comes at most once. -/
def distinctFields (fields : List String) (members : List (String × Value)) : Bool :=
  fields.all fun field => (members.filter fun member => member.1 == field).length ≤ 1

/-- The fields of a record, which may carry its name and have other fields. -/
def asRecord? (extensions : Extensions) (name : String) (fields : List String) :
    Value → Option (List (String × Value))
  | .record given members =>
    if (given = Option.some name ∨ (given = Option.none ∧ !extensions.explicitNames)) ∧
      distinctFields fields members then Option.some members
    else Option.none
  | .tuple given [] =>
    if given = Option.some name ∨ (given = Option.none ∧ !extensions.explicitNames) then
      Option.some []
    else Option.none
  | .unit => if extensions.explicitNames then Option.none else Option.some []
  | _ => Option.none

def required? (known : List (String × Value)) (field : String) (read : Value → Option α) :
    Option α :=
  (known.lookup field).bind read

def optional? (known : List (String × Value)) (field : String) (absent : α)
    (read : Value → Option α) : Option α :=
  match known.lookup field with
  | .some value => read value
  | .none => Option.some absent

end Ron.Value

open Ron.Value (asString? asBool? asWord? asList? asOption? asMap? asRecord? required? optional?)

def PlaceDescription.ofRon? (value : Value) : Option PlaceDescription := do
  let (known, extra) ← asMap? (fields.map (·.1)) value
  return {
    id := ← required? known "id" asString?
    name := ← required? known "name" asString?
    type := ← required? known "placeType" (asWord? DataType.table)
    initialMark := ← required? known "initialMark" asString?
    extra }

def TransitionDescription.ofRon? (extensions : Extensions) (value : Value) :
    Option TransitionDescription := do
  let (known, extra) ← asMap? (fields.map (·.1)) value
  return {
    id := ← required? known "id" asString?
    name := ← required? known "name" asString?
    delay := ← required? known "delay" asString?
    guard := ← optional? known "guard" none (asOption? extensions asString?)
    priority := ← optional? known "priority" none (asOption? extensions asString?)
    extra }

def ArcDescription.ofRon? (value : Value) : Option ArcDescription := do
  let (known, extra) ← asMap? (fields.map (·.1)) value
  return {
    id := ← required? known "id" asString?
    place := ← required? known "placeId" asString?
    transition := ← required? known "transId" asString?
    kind := ← required? known "arcType" (asWord? ArcKind.table)
    weight := ← required? known "weight" asString?
    extra }

/-- The name that the record of an input may carry. -/
def InputDescription.recordName : String := "InputData"

def InputDescription.ofRon? (extensions : Extensions) (value : Value) :
    Option InputDescription := do
  let known ← asRecord? extensions recordName (fields.map (·.1)) value
  return {
    name := ← required? known "name" asString?
    type := ← required? known "type" (asWord? DataType.table)
    initialValue := ← optional? known "initialValue" "" asString?
    description := ← optional? known "description" "" asString? }

def SimulationConfig.recordName : String := "SimConfig"

def SimulationConfig.ofRon? (extensions : Extensions) (value : Value) :
    Option SimulationConfig := do
  let known ← asRecord? extensions recordName (fields.map (·.1)) value
  return {
    mode := ← optional? known "simMode" .classic (asWord? FiringMode.table)
    arcDebug := ← optional? known "arcDebug" false asBool?
    guardDebug := ← optional? known "guardDebug" false asBool?
    priorityMode := ← optional? known "priorityMode" .fixed (asWord? PriorityMode.table) }

def NetDescription.ofRon? (extensions : Extensions) (value : Value) : Option NetDescription := do
  let (known, extra) ← asMap? (fields.map (·.1)) value
  return {
    name := ← optional? known "name" "" asString?
    preScript := ← optional? known "preScript" "" asString?
    places := ← optional? known "places" [] (asList? PlaceDescription.ofRon?)
    transitions :=
      ← optional? known "transitions" [] (asList? (TransitionDescription.ofRon? extensions))
    arcs := ← optional? known "arcs" [] (asList? ArcDescription.ofRon?)
    inputs := ← optional? known "inputs" [] (asList? (InputDescription.ofRon? extensions))
    simulation := ← optional? known "simConfig" {} (SimulationConfig.ofRon? extensions)
    extra }

def NetDescription.parseRon? (text : String) : Option NetDescription := do
  let (extensions, value) ← Ron.parse text
  NetDescription.ofRon? extensions value

end AutomationNet
