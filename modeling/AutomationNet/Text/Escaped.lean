import AutomationNet.Text.Glyph

/-!
# Escaped text

The written form of a text in which quotes, the backslash and every character without a glyph of its
own are escaped, so that the text can be told apart from what surrounds it.

* `Escaped.char` : the written form of one character, both kinds of quotes escaped
* `Escaped.quoteAll` : the text between double quotes, both kinds of quotes escaped
* `Escaped.quote` : the text between double quotes, an apostrophe standing for itself
-/

namespace AutomationNet.Escaped

def codePoint (c : Char) : List Char :=
  ['\\', 'u', '\x7b'] ++ Nat.toDigits 16 c.toNat ++ ['\x7d']

def char (c : Char) : List Char :=
  if c = '\x00' then ['\\', '0']
  else if c = '\t' then ['\\', 't']
  else if c = '\r' then ['\\', 'r']
  else if c = '\n' then ['\\', 'n']
  else if c = '\\' ∨ c = '\'' ∨ c = '"' then ['\\', c]
  else if Glyph.shows c then [c]
  else codePoint c

/-- The text between double quotes, both kinds of quotes in it escaped. -/
def quoteAll (text : String) : String :=
  String.ofList ('"' :: text.toList.flatMap char ++ ['"'])

/-- The text between double quotes, where an apostrophe needs no escape. -/
def quote (text : String) : String :=
  String.ofList
    ('"' :: text.toList.flatMap (fun c => if c = '\'' then [c] else char c) ++ ['"'])

end AutomationNet.Escaped
