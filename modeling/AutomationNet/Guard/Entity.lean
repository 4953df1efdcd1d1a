/-!
# Entities in guard texts

The editor stores guards with the characters `< > & " '` written as entities. Decoding replaces
every entity once, from left to right, and never looks at what it has put in place.

* `Entity.decode` : the decoded text
-/

namespace AutomationNet.Entity

/-- Replaces each of the five entities by its character. -/
def decodeChars : List Char → List Char
  | [] => []
  | '&' :: 'g' :: 't' :: ';' :: rest => '>' :: decodeChars rest
  | '&' :: 'l' :: 't' :: ';' :: rest => '<' :: decodeChars rest
  | '&' :: 'a' :: 'm' :: 'p' :: ';' :: rest => '&' :: decodeChars rest
  | '&' :: 'q' :: 'u' :: 'o' :: 't' :: ';' :: rest => '"' :: decodeChars rest
  | '&' :: 'a' :: 'p' :: 'o' :: 's' :: ';' :: rest => '\'' :: decodeChars rest
  | c :: rest => c :: decodeChars rest

def decode (text : String) : String := String.ofList (decodeChars text.toList)

end AutomationNet.Entity
