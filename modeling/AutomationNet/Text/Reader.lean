import AutomationNet.Text.Numeral

/-!
# Readers

A reader takes what it reads off the front of a text and gives the rest, or nothing if the text does
not begin with what it reads.

* `Reader` : the readers
* `Reader.literal` : a given text
* `Reader.escapedByte`, `Reader.utf8Escape` : a character spelt by the bytes of its UTF-8 form
-/

namespace AutomationNet

/-- Takes what it reads off the front of a text. -/
abbrev Reader (α : Type) := List Char → Option (α × List Char)

namespace Reader

def literal (word : List Char) : Reader Unit := fun text =>
  if word.isPrefixOf text then some ((), text.drop word.length) else none

def one (property : Char → Bool) : Reader Char
  | c :: rest => if property c then some (c, rest) else none
  | [] => none

def escapedByte : Reader Nat
  | a :: b :: rest => (Numeral.hex? [a, b]).map (·, rest)
  | _ => none

/-- The one character whose UTF-8 form the bytes are. -/
def ofUtf8? (bytes : List Nat) : Option Char :=
  match (String.fromUTF8? ⟨(bytes.map UInt8.ofNat).toArray⟩).map String.toList with
  | some [c] => some c
  | _ => none

/-- The character of the bytes read so far, or with up to `count` more of them, each after `\x`. -/
def utf8Escape (count : Nat) (bytes : List Nat) : Reader Char := fun text =>
  match ofUtf8? bytes with
  | some c => some (c, text)
  | none =>
    match count, text with
    | count + 1, '\\' :: 'x' :: rest =>
      match escapedByte rest with
      | some (byte, rest) => utf8Escape count (bytes ++ [byte]) rest
      | none => none
    | _, _ => none

end Reader

end AutomationNet
