import AutomationNet.Json.Reading
import AutomationNet.Simulation.Inputs

/-!
# Input files

An accessor that starts with the declared values and reads a file again whenever it is asked. A file
counts only as a whole: one that is missing, malformed or has a member that is no number leaves all
values as they are.

* `InputValues.ofDeclared` : the values before any file has been read
* `InputValues.parse?` : the values of a file
* `InputValues.overlay` : values on top of others
* `InputValues.reread` : the values after a file has been read, or has failed to be
-/

namespace AutomationNet.InputValues

def overlay (values more : InputValues) : InputValues :=
  more.foldl (fun values entry => upsert entry.1 entry.2 values) values

def ofDeclared (inputs : List InputDescription) : InputValues :=
  overlay [] (inputs.map fun input => (input.name, input.initialNumber))

/-- The number that a member stands for: `true` and `false` are `1` and `0`. -/
def number? : Json → Option Binary64
  | .bool b => some (if b then .one else .zero)
  | .number n => some n.toDouble
  | _ => none

def ofMembers? (members : Json.Members) : Option InputValues :=
  members.mapM fun member => (number? member.2).map fun value => (member.1, value)

def parse? (text : String) : Option InputValues :=
  match Json.parse text with
  | .ok (.object members) => ofMembers? members
  | _ => none

/-- The values after reading a file, whose content is missing if it cannot be read. -/
def reread (values : InputValues) (content : Option String) : InputValues :=
  match content.bind parse? with
  | some more => values.overlay more
  | none => values

end AutomationNet.InputValues
