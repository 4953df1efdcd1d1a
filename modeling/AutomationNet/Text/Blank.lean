/-!
# Blank characters

The characters with the Unicode property `White_Space`, and what trimming them off a text leaves.

* `Blank.isBlank` : the class
* `Blank.trim` : the text without the blanks at both ends
* `Blank.isBlankText` : nothing but blanks
-/

namespace AutomationNet.Blank

/-- The characters with the property `White_Space`. -/
def isBlank (c : Char) : Bool :=
  let n := c.toNat
  (9 ≤ n && n ≤ 13) || n == 0x20 || n == 0x85 || n == 0xa0 || n == 0x1680 ||
    (0x2000 ≤ n && n ≤ 0x200a) || n == 0x2028 || n == 0x2029 || n == 0x202f || n == 0x205f ||
    n == 0x3000

def trimChars (text : List Char) : List Char :=
  ((text.dropWhile isBlank).reverse.dropWhile isBlank).reverse

def trim (text : String) : List Char := trimChars text.toList

/-- A text of blanks only, the empty one included. -/
def isBlankText (text : String) : Bool := text.toList.all isBlank

end AutomationNet.Blank
