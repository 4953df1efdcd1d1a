import AutomationNet.Description.Basic
import AutomationNet.Json.Reading
import AutomationNet.Json.Written

/-!
# Net descriptions as JSON

Records are objects with their fields in a fixed order, followed by whatever else belongs to them.
Inputs and the simulation settings have no place for other members; on reading these are dropped,
and such a record may also be an array of its fields.

* `NetDescription.toJson` : the value a description is written as
* `NetDescription.render` : its text
* `NetDescription.ofScan` : the description a scanned value holds
* `NetDescription.parse`, `NetDescription.ofJson` : the same from a text and from a value
-/

namespace AutomationNet

open Json (Scan Fault)

def DataType.table : List (String × DataType) := [("INT", .int), ("BOOL", .bool)]

def ArcKind.table : List (String × ArcKind) :=
  [("Input", .input), ("Output", .output), ("Test", .test), ("Inhibitor", .inhibitor)]

def FiringMode.table : List (String × FiringMode) :=
  [("Classic", .classic), ("Automation", .automation), ("VisObj", .visObj)]

def PriorityMode.table : List (String × PriorityMode) := [("fixed", .fixed), ("random", .random)]

/-! ## Writing -/

/-- A field that is left out when it has no value. -/
def optionalField (key : String) : Option String → Json.Members
  | none => []
  | some text => [(key, .string text)]

def PlaceDescription.toJson (p : PlaceDescription) : Json :=
  .object ([("id", .string p.id), ("name", .string p.name), ("placeType", .string p.type.name),
    ("initialMark", .string p.initialMark)] ++ p.extra)

def TransitionDescription.toJson (t : TransitionDescription) : Json :=
  .object ([("id", .string t.id), ("name", .string t.name), ("delay", .string t.delay)] ++
    optionalField "guard" t.guard ++ optionalField "priority" t.priority ++ t.extra)

def ArcDescription.toJson (a : ArcDescription) : Json :=
  .object ([("id", .string a.id), ("placeId", .string a.place), ("transId", .string a.transition),
    ("arcType", .string a.kind.name), ("weight", .string a.weight)] ++ a.extra)

def InputDescription.toJson (i : InputDescription) : Json :=
  .object [("name", .string i.name), ("type", .string i.type.name),
    ("initialValue", .string i.initialValue), ("description", .string i.description)]

def SimulationConfig.toJson (c : SimulationConfig) : Json :=
  .object [("simMode", .string c.mode.name), ("arcDebug", .bool c.arcDebug),
    ("guardDebug", .bool c.guardDebug), ("priorityMode", .string c.priorityMode.name)]

def NetDescription.toJson (net : NetDescription) : Json :=
  .object ([("name", .string net.name), ("preScript", .string net.preScript),
    ("places", .array (net.places.map (·.toJson))),
    ("transitions", .array (net.transitions.map (·.toJson))),
    ("arcs", .array (net.arcs.map (·.toJson))),
    ("inputs", .array (net.inputs.map (·.toJson))),
    ("simConfig", net.simulation.toJson)] ++ net.extra)

def NetDescription.render (net : NetDescription) : String := net.toJson.pretty

/-! ## Reading -/

/-- How many levels of nesting are left to the other members of a description. -/
def netDepth : Nat := Json.depthLimit - 1

/-- How many levels of nesting are left to the other members of a place, transition or arc. -/
def elementDepth : Nat := Json.depthLimit - 3

def PlaceDescription.fields : List (String × (Scan → Except Fault Unit)) :=
  [("id", Scan.check Scan.asString), ("name", Scan.check Scan.asString),
    ("placeType", Scan.check (Scan.asName DataType.table)),
    ("initialMark", Scan.check Scan.asString)]

def PlaceDescription.ofScan (scan : Scan) : Except Fault PlaceDescription := do
  let record ← scan.asRecord fields (.kept elementDepth)
  return {
    id := ← record.required "id" Scan.asString
    name := ← record.required "name" Scan.asString
    type := ← record.required "placeType" (Scan.asName DataType.table)
    initialMark := ← record.required "initialMark" Scan.asString
    extra := record.extra }

def TransitionDescription.fields : List (String × (Scan → Except Fault Unit)) :=
  [("id", Scan.check Scan.asString), ("name", Scan.check Scan.asString),
    ("delay", Scan.check Scan.asString),
    ("guard", Scan.check (Scan.asOptional Scan.asString)),
    ("priority", Scan.check (Scan.asOptional Scan.asString))]

def TransitionDescription.ofScan (scan : Scan) : Except Fault TransitionDescription := do
  let record ← scan.asRecord fields (.kept elementDepth)
  return {
    id := ← record.required "id" Scan.asString
    name := ← record.required "name" Scan.asString
    delay := ← record.required "delay" Scan.asString
    guard := ← record.optional "guard" none (Scan.asOptional Scan.asString)
    priority := ← record.optional "priority" none (Scan.asOptional Scan.asString)
    extra := record.extra }

def ArcDescription.fields : List (String × (Scan → Except Fault Unit)) :=
  [("id", Scan.check Scan.asString), ("placeId", Scan.check Scan.asString),
    ("transId", Scan.check Scan.asString),
    ("arcType", Scan.check (Scan.asName ArcKind.table)), ("weight", Scan.check Scan.asString)]

def ArcDescription.ofScan (scan : Scan) : Except Fault ArcDescription := do
  let record ← scan.asRecord fields (.kept elementDepth)
  return {
    id := ← record.required "id" Scan.asString
    place := ← record.required "placeId" Scan.asString
    transition := ← record.required "transId" Scan.asString
    kind := ← record.required "arcType" (Scan.asName ArcKind.table)
    weight := ← record.required "weight" Scan.asString
    extra := record.extra }

def InputDescription.fields : List (String × (Scan → Except Fault Unit)) :=
  [("name", Scan.check Scan.asString), ("type", Scan.check (Scan.asName DataType.table)),
    ("initialValue", Scan.check Scan.asString), ("description", Scan.check Scan.asString)]

def InputDescription.ofScan (scan : Scan) : Except Fault InputDescription := do
  let record ← scan.asRecordOrList fields .skipped
  return {
    name := ← record.required "name" Scan.asString
    type := ← record.required "type" (Scan.asName DataType.table)
    initialValue := ← record.optional "initialValue" "" Scan.asString
    description := ← record.optional "description" "" Scan.asString }

def SimulationConfig.fields : List (String × (Scan → Except Fault Unit)) :=
  [("simMode", Scan.check (Scan.asName FiringMode.table)), ("arcDebug", Scan.check Scan.asBool),
    ("guardDebug", Scan.check Scan.asBool),
    ("priorityMode", Scan.check (Scan.asName PriorityMode.table))]

def SimulationConfig.ofScan (scan : Scan) : Except Fault SimulationConfig := do
  let record ← scan.asRecordOrList fields .skipped
  return {
    mode := ← record.optional "simMode" .classic (Scan.asName FiringMode.table)
    arcDebug := ← record.optional "arcDebug" false Scan.asBool
    guardDebug := ← record.optional "guardDebug" false Scan.asBool
    priorityMode := ← record.optional "priorityMode" .fixed (Scan.asName PriorityMode.table) }

def NetDescription.fields : List (String × (Scan → Except Fault Unit)) :=
  [("name", Scan.check Scan.asString), ("preScript", Scan.check Scan.asString),
    ("places", Scan.check (Scan.asList PlaceDescription.ofScan)),
    ("transitions", Scan.check (Scan.asList TransitionDescription.ofScan)),
    ("arcs", Scan.check (Scan.asList ArcDescription.ofScan)),
    ("inputs", Scan.check (Scan.asList InputDescription.ofScan)),
    ("simConfig", Scan.check SimulationConfig.ofScan)]

def NetDescription.ofScan (scan : Scan) : Except Fault NetDescription := do
  let record ← scan.asRecord fields (.kept netDepth)
  return {
    name := ← record.optional "name" "" Scan.asString
    preScript := ← record.optional "preScript" "" Scan.asString
    places := ← record.optional "places" [] (Scan.asList PlaceDescription.ofScan)
    transitions := ← record.optional "transitions" [] (Scan.asList TransitionDescription.ofScan)
    arcs := ← record.optional "arcs" [] (Scan.asList ArcDescription.ofScan)
    inputs := ← record.optional "inputs" [] (Scan.asList InputDescription.ofScan)
    simulation := ← record.optional "simConfig" {} SimulationConfig.ofScan
    extra := record.extra }

def NetDescription.parse (text : String) : Except Fault NetDescription :=
  Json.readText NetDescription.ofScan text

/-- The description that a value holds. Only its shape can be wrong. -/
def NetDescription.ofJson (value : Json) : Except Fault NetDescription :=
  (NetDescription.ofScan (.ofValue value)).mapError fun _ => .mismatched

end AutomationNet
