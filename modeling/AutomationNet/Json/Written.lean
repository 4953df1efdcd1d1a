import AutomationNet.Json.Basic
import AutomationNet.Number.DecimalText

/-!
# Written JSON

The two written forms of a value: without any blanks, and over several lines with two blanks of
indentation for each level. Members are written in the order of the list.

* `Json.doubleStyle` : positional from `0.00001` up to below `1e+16`, a point in every double
* `Json.compact` : the form without blanks
* `Json.pretty` : the form over several lines, empty arrays and objects on one line
-/

namespace AutomationNet.Json

/-- Doubles are positional while the exponent of their leading digit is between `-5` and `15`, and
always have a point or an exponent. -/
def doubleStyle : DecimalStyle := ⟨fun leading => -5 ≤ leading && leading ≤ 15, true, .even⟩

def escapeChar (c : Char) : List Char :=
  if c = '"' ∨ c = '\\' then ['\\', c]
  else if c = '\n' then ['\\', 'n']
  else if c = '\r' then ['\\', 'r']
  else if c = '\t' then ['\\', 't']
  else if c = '\x08' then ['\\', 'b']
  else if c = '\x0c' then ['\\', 'f']
  else if c.toNat < 0x10 then ['\\', 'u', '0', '0', '0'] ++ Nat.toDigits 16 c.toNat
  else if c.toNat < 0x20 then ['\\', 'u', '0', '0'] ++ Nat.toDigits 16 c.toNat
  else [c]

def quoted (s : String) : List Char := '"' :: s.toList.flatMap escapeChar ++ ['"']

/-- A number; what is not finite has no written form and becomes `null`. -/
def Number.written : Number → List Char
  | .whole i => if i < 0 then '-' :: Nat.toDigits 10 i.natAbs else Nat.toDigits 10 i.natAbs
  | .double x => if x.isFinite then (doubleStyle.render x).toList else ['n', 'u', 'l', 'l']

def boolWritten : Bool → List Char
  | true => ['t', 'r', 'u', 'e']
  | false => ['f', 'a', 'l', 's', 'e']

mutual

/-- The written form without blanks. -/
def compactChars : Json → List Char
  | .null => ['n', 'u', 'l', 'l']
  | .bool b => boolWritten b
  | .number n => n.written
  | .string s => quoted s
  | .array items => '[' :: compactItems true items ++ [']']
  | .object members => '\x7b' :: compactMembers true members ++ ['\x7d']

/-- The items of an array, a comma before every one but the first. -/
def compactItems (first : Bool) : List Json → List Char
  | [] => []
  | item :: rest =>
    (if first then [] else [',']) ++ compactChars item ++ compactItems false rest

def compactMembers (first : Bool) : List (String × Json) → List Char
  | [] => []
  | (key, value) :: rest =>
    (if first then [] else [',']) ++ quoted key ++ ':' :: compactChars value ++
      compactMembers false rest

end

def compact (value : Json) : String := String.ofList (compactChars value)

def newline (level : Nat) : List Char := '\n' :: List.replicate (2 * level) ' '

mutual

/-- The written form over several lines, at a level of indentation. -/
def prettyChars (level : Nat) : Json → List Char
  | .null => ['n', 'u', 'l', 'l']
  | .bool b => boolWritten b
  | .number n => n.written
  | .string s => quoted s
  | .array [] => ['[', ']']
  | .array (item :: rest) =>
    '[' :: newline (level + 1) ++ prettyChars (level + 1) item ++ prettyItems (level + 1) rest ++
      newline level ++ [']']
  | .object [] => ['\x7b', '\x7d']
  | .object ((key, value) :: rest) =>
    '\x7b' :: newline (level + 1) ++ quoted key ++ ':' :: ' ' :: prettyChars (level + 1) value ++
      prettyMembers (level + 1) rest ++ newline level ++ ['\x7d']

def prettyItems (level : Nat) : List Json → List Char
  | [] => []
  | item :: rest => ',' :: newline level ++ prettyChars level item ++ prettyItems level rest

def prettyMembers (level : Nat) : List (String × Json) → List Char
  | [] => []
  | (key, value) :: rest =>
    ',' :: newline level ++ quoted key ++ ':' :: ' ' :: prettyChars level value ++
      prettyMembers level rest

end

def pretty (value : Json) : String := String.ofList (prettyChars 0 value)

end AutomationNet.Json
