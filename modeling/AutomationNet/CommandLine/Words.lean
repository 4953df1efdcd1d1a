import AutomationNet.Text.Blank

/-!
# Words of a line

A line of options is split into words at its blanks. Quotes and backslashes keep blanks inside a
word: between single quotes every character stands for itself, between double quotes all but the
backslash and the double quote, and a backslash takes the meaning off the character behind it.

* `Quoting` : how the next character is to be read
* `words?` : the words of a line, none if a quote is never closed
-/

namespace AutomationNet.CommandLine

/-- How the next character of a line is to be read. -/
inductive Quoting where
  | bare
  /-- Behind a backslash outside quotes. -/
  | escaped
  | single
  | double
  /-- Behind a backslash between double quotes. -/
  | doubleEscaped
  deriving DecidableEq, Repr

/-- The characters that a backslash between double quotes escapes; before others it stands for
itself. -/
def isSpecial (c : Char) : Bool := c = '$' || c = '\x60' || c = '"' || c = '\\'

/-- A word from its characters, the last one first. -/
def finished (word : List Char) : String := String.ofList word.reverse

/-- The words of the rest of a line; the characters of the one begun are given last one first. -/
def wordsFrom (quoting : Quoting) (word : Option (List Char)) :
    List Char → Option (List String)
  | [] =>
    match quoting with
    | .bare => some (word.toList.map finished)
    | .escaped => some [finished ('\\' :: word.getD [])]
    | _ => none
  | c :: rest =>
    let begun := word.getD []
    match quoting with
    | .bare =>
      if Blank.isBlank c then (wordsFrom .bare none rest).map (word.toList.map finished ++ ·)
      else if c = '\\' then wordsFrom .escaped (some begun) rest
      else if c = '\'' then wordsFrom .single (some begun) rest
      else if c = '"' then wordsFrom .double (some begun) rest
      else wordsFrom .bare (some (c :: begun)) rest
    | .escaped =>
      if c = '\n' then (wordsFrom .bare none rest).map (finished ('\\' :: begun) :: ·)
      else wordsFrom .bare (some (c :: begun)) rest
    | .single =>
      if c = '\'' then wordsFrom .bare (some begun) rest
      else wordsFrom .single (some (c :: begun)) rest
    | .double =>
      if c = '"' then wordsFrom .bare (some begun) rest
      else if c = '\\' then wordsFrom .doubleEscaped (some begun) rest
      else wordsFrom .double (some (c :: begun)) rest
    | .doubleEscaped =>
      if c = '\n' then none
      else if isSpecial c then wordsFrom .double (some (c :: begun)) rest
      else wordsFrom .double (some (c :: '\\' :: begun)) rest

def words? (line : String) : Option (List String) := wordsFrom .bare none line.toList

end AutomationNet.CommandLine
