import AutomationNet.Number.DecimalText
import AutomationNet.Ron.Basic
import AutomationNet.Text.Escaped
import AutomationNet.Text.Numeral

/-!
# Written RON

Every part of a value stands on a line of its own, with four blanks of indentation for each level and
a comma after it; only what is empty stays on one line.

* `Ron.doubleStyle` : positional, a point in every double
* `Ron.Value.pretty` : the text of a value
-/

namespace AutomationNet.Ron

/-- Doubles are written without an exponent and always with a point. -/
def doubleStyle : DecimalStyle := ⟨fun _ => true, true, .up⟩

def numberText : Json.Number → List Char
  | .whole i => (Numeral.ofInt i).toList
  | .double x => (doubleStyle.render x).toList

def newline (level : Nat) : List Char := '\n' :: List.replicate (4 * level) ' '

namespace Value

/-- Parts between brackets; there are none if there are no parts. -/
def enclosed (level : Nat) (opening closing : Char) (parts : List Char) : List Char :=
  if parts.isEmpty then [opening, closing]
  else opening :: parts ++ newline level ++ [closing]

mutual

def written (level : Nat) : Value → List Char
  | .unit => ['(', ')']
  | .bool b => if b then ['t', 'r', 'u', 'e'] else ['f', 'a', 'l', 's', 'e']
  | .number n => numberText n
  | .notFinite => ['N', 'a', 'N']
  | .char c => '\'' :: Escaped.char c ++ ['\'']
  | .string s => (Escaped.quoteAll s).toList
  | .bytes => ['b', '"', '"']
  | .none => ['N', 'o', 'n', 'e']
  | .some value => ['S', 'o', 'm', 'e', '('] ++ written level value ++ [')']
  | .word name => name.toList
  | .list items => enclosed level '[' ']' (writtenItems (level + 1) items)
  | .tuple name items =>
    (name.getD "").toList ++ enclosed level '(' ')' (writtenItems (level + 1) items)
  | .record name fields =>
    (name.getD "").toList ++ enclosed level '(' ')' (writtenFields (level + 1) fields)
  | .map entries => enclosed level '\x7b' '\x7d' (writtenEntries (level + 1) entries)

def writtenItems (level : Nat) : List Value → List Char
  | [] => []
  | item :: rest => newline level ++ written level item ++ ',' :: writtenItems level rest

def writtenFields (level : Nat) : List (String × Value) → List Char
  | [] => []
  | (name, value) :: rest =>
    newline level ++ name.toList ++ ':' :: ' ' :: written level value ++
      ',' :: writtenFields level rest

def writtenEntries (level : Nat) : List (Value × Value) → List Char
  | [] => []
  | (key, value) :: rest =>
    newline level ++ written level key ++ ':' :: ' ' :: written level value ++
      ',' :: writtenEntries level rest

end

def pretty (value : Value) : String := String.ofList (written 0 value)

end Value

end AutomationNet.Ron
