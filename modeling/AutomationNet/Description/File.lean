import AutomationNet.Description.Json
import AutomationNet.Description.Ron
import AutomationNet.Text.Path

/-!
# Description files

A description is kept in a file whose name tells its format.

* `FileFormat.ofPath` : RON if the extension says so in any case, JSON otherwise
* `NetDescription.write` : the text of a description in a format
* `NetDescription.read` : the description that a text holds in a format
-/

namespace AutomationNet

inductive FileFormat where
  | json
  | ron
  deriving DecidableEq, Repr

def FileFormat.ofPath (path : String) : FileFormat :=
  match Path.extension? path with
  | some ending => if ending.map Char.toLower = ['r', 'o', 'n'] then .ron else .json
  | none => .json

inductive FormatError where
  | json (fault : Json.Fault)
  | ron
  deriving DecidableEq, Repr

namespace NetDescription

def write (description : NetDescription) : FileFormat → String
  | .json => description.render
  | .ron => description.renderRon

def read (text : String) : FileFormat → Except FormatError NetDescription
  | .json => (parse text).mapError .json
  | .ron => (parseRon? text).elim (.error .ron) .ok

end NetDescription

end AutomationNet
