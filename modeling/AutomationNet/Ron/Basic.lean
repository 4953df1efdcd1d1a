import AutomationNet.Json.Basic

/-!
# RON values

The values of the second exchange format. Records have bare field names, maps have keys of any kind,
and a bare word is a value; the form of a value tells which type it was written for.

* `Ron.Value` : the values
* `Ron.Value.toJson?` : the JSON value that a value stands for where any value may stand
* `Ron.Value.ofJson` : the value that a JSON value is written as
-/

namespace AutomationNet.Ron

inductive Value where
  | unit
  | bool (value : Bool)
  | number (value : Json.Number)
  /-- An infinity, or no number at all. -/
  | notFinite
  | char (value : Char)
  | string (value : String)
  /-- A byte string, which no description has a use for. -/
  | bytes
  | none
  | some (value : Value)
  | word (name : String)
  | list (items : List Value)
  | tuple (name : Option String) (items : List Value)
  | record (name : Option String) (fields : List (String × Value))
  | map (entries : List (Value × Value))
  deriving Inhabited

namespace Value

mutual

/-- The JSON value a value stands for. Byte strings stand for none, nor do maps with keys that are
no strings. -/
def toJson? : Value → Option Json
  | .unit => Option.some .null
  | .bool b => Option.some (.bool b)
  | .number n => Option.some (.number n)
  | .notFinite => Option.some .null
  | .char c => Option.some (.string (String.singleton c))
  | .string s => Option.some (.string s)
  | .bytes => Option.none
  | .none => Option.some .null
  | .some value => toJson? value
  | .word _ => Option.some .null
  | .list items => (itemsToJson? items).map .array
  | .tuple _ items => (itemsToJson? items).map .array
  | .record _ fields => (fieldsToJson? fields).map fun members => .object (Json.sorted members)
  | .map entries => (entriesToJson? entries).map fun members => .object (Json.sorted members)

def itemsToJson? : List Value → Option (List Json)
  | [] => Option.some []
  | item :: rest =>
    match toJson? item, itemsToJson? rest with
    | .some item, .some rest => Option.some (item :: rest)
    | _, _ => Option.none

def fieldsToJson? : List (String × Value) → Option Json.Members
  | [] => Option.some []
  | (name, value) :: rest =>
    match toJson? value, fieldsToJson? rest with
    | .some value, .some rest => Option.some ((name, value) :: rest)
    | _, _ => Option.none

def entriesToJson? : List (Value × Value) → Option Json.Members
  | [] => Option.some []
  | (.string key, value) :: rest =>
    match toJson? value, entriesToJson? rest with
    | .some value, .some rest => Option.some ((key, value) :: rest)
    | _, _ => Option.none
  | _ :: _ => Option.none

end

mutual

def ofJson : Json → Value
  | .null => .unit
  | .bool b => .bool b
  | .number n => .number n
  | .string s => .string s
  | .array items => .list (ofItems items)
  | .object members => .map (ofMembers members)

def ofItems : List Json → List Value
  | [] => []
  | item :: rest => ofJson item :: ofItems rest

def ofMembers : List (String × Json) → List (Value × Value)
  | [] => []
  | (key, value) :: rest => (.string key, ofJson value) :: ofMembers rest

end

end Value

end AutomationNet.Ron
