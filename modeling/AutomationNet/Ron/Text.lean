import AutomationNet.Text.Reader
import AutomationNet.Text.Word

/-!
# The words and strings of RON

* `Ron.Comment`, `Ron.skipBlank` : blanks and comments, nothing for a comment that does not close
* `Ron.word` : bare words, which a leading `r#` lets contain points and signs
* `Ron.string`, `Ron.byteString`, `Ron.character` : quoted texts
-/

namespace AutomationNet.Ron

/-! ## Blanks -/

/-- The characters with the Unicode property `Pattern_White_Space`. -/
def isBlank (c : Char) : Bool :=
  let n := c.toNat
  (9 ≤ n && n ≤ 13) || n == 0x20 || n == 0x85 || n == 0x200e || n == 0x200f || n == 0x2028 ||
    n == 0x2029

/-- What the text in front of a reader belongs to. -/
inductive Comment where
  | outside
  | line
  /-- A comment of several lines, inside so many others. -/
  | block (depth : Nat)
  deriving DecidableEq, Repr

/-- What follows blanks and comments, from inside a comment on. -/
def skipFrom : Comment → List Char → Option (List Char)
  | .outside, '/' :: '/' :: rest => skipFrom .line rest
  | .outside, '/' :: '*' :: rest => skipFrom (.block 0) rest
  | .outside, '/' :: _ => none
  | .outside, c :: rest => if isBlank c then skipFrom .outside rest else some (c :: rest)
  | .line, c :: rest => skipFrom (if c = '\n' then .outside else .line) rest
  | .block depth, '/' :: '*' :: rest => skipFrom (.block (depth + 1)) rest
  | .block 0, '*' :: '/' :: rest => skipFrom .outside rest
  | .block (depth + 1), '*' :: '/' :: rest => skipFrom (.block depth) rest
  | .block depth, _ :: rest => skipFrom (.block depth) rest
  | .block _, [] => none
  | _, [] => some []

def skipBlank (text : List Char) : Option (List Char) := skipFrom .outside text

/-! ## Words -/

def beginsWord (c : Char) : Bool := Word.begins c || c == '_'

def isRaw (c : Char) : Bool := Word.goesOn c || c == '.' || c == '+' || c == '-'

/-- Whether a quoted text begins here rather than a word. -/
def beginsQuoted : List Char → Bool
  | 'b' :: '"' :: _ => true
  | 'b' :: '\'' :: _ => true
  | 'b' :: 'r' :: '#' :: _ => true
  | 'b' :: 'r' :: '"' :: _ => true
  | 'r' :: '"' :: _ => true
  | 'r' :: '#' :: '"' :: _ => true
  | 'r' :: '#' :: '#' :: _ => true
  | _ => false

def word : Reader String := fun text =>
  if beginsQuoted text then none
  else
    match text with
    | 'r' :: '#' :: rest =>
      let name := rest.takeWhile isRaw
      if name.isEmpty then none else some (String.ofList name, rest.dropWhile isRaw)
    | c :: rest =>
      if beginsWord c then
        some (String.ofList (c :: rest.takeWhile Word.goesOn), rest.dropWhile Word.goesOn)
      else none
    | [] => none

/-! ## Escapes -/

/-- Up to `count` hexadecimal digits that a brace closes. -/
def closedHex : (count value : Nat) → Reader Nat
  | _, value, '\x7d' :: rest => some (value, rest)
  | count + 1, value, c :: rest =>
    match Numeral.hexDigit? c with
    | some digit => closedHex count (16 * value + digit) rest
    | none => none
  | _, _, _ => none

def codePoint : Reader Char
  | '\x7b' :: '\x7d' :: _ => none
  | '\x7b' :: rest =>
    match closedHex 6 0 rest with
    | some (n, rest) => (Numeral.char? n).map (·, rest)
    | none => none
  | _ => none

/-- An escape after its backslash; `more` is the number of further bytes that may spell a
character. -/
def escape (more : Nat) : Reader Char
  | '\'' :: rest => some ('\'', rest)
  | '"' :: rest => some ('"', rest)
  | '\\' :: rest => some ('\\', rest)
  | 'n' :: rest => some ('\n', rest)
  | 'r' :: rest => some ('\r', rest)
  | 't' :: rest => some ('\t', rest)
  | '0' :: rest => some ('\x00', rest)
  | 'x' :: rest =>
    match Reader.escapedByte rest with
    | some (byte, rest) => Reader.utf8Escape more [byte] rest
    | none => none
  | 'u' :: rest => codePoint rest
  | _ => none

def byteEscape : Reader Unit
  | 'x' :: rest => (Reader.escapedByte rest).map fun (_, rest) => ((), rest)
  | 'u' :: rest => (codePoint rest).map fun (_, rest) => ((), rest)
  | c :: rest => if c ∈ ['\'', '"', '\\', 'n', 'r', 't', '0'] then some ((), rest) else none
  | [] => none

/-! ## Quoted texts -/

def stringChars : (budget : Nat) → Reader (List Char)
  | 0, _ => none
  | _, [] => none
  | _, '"' :: rest => some ([], rest)
  | budget + 1, '\\' :: rest =>
    match escape 3 rest with
    | some (c, rest) => (stringChars budget rest).map fun (cs, rest) => (c :: cs, rest)
    | none => none
  | budget + 1, c :: rest => (stringChars budget rest).map fun (cs, rest) => (c :: cs, rest)

def byteChars : (budget : Nat) → Reader Unit
  | 0, _ => none
  | _, [] => none
  | _, '"' :: rest => some ((), rest)
  | budget + 1, '\\' :: rest => (byteEscape rest).bind fun (_, rest) => byteChars budget rest
  | budget + 1, _ :: rest => byteChars budget rest

/-- The characters before the first place where the ending stands. -/
def upTo (ending : List Char) : Reader (List Char)
  | [] => if ending.isEmpty then some ([], []) else none
  | c :: rest =>
    if ending.isPrefixOf (c :: rest) then some ([], (c :: rest).drop ending.length)
    else (upTo ending rest).map fun (cs, rest) => (c :: cs, rest)

/-- A raw text after its `r`: as many number signs behind its end as before its beginning. -/
def rawChars : Reader (List Char) := fun text =>
  let signs := text.takeWhile (· == '#')
  match text.dropWhile (· == '#') with
  | '"' :: rest => upTo ('"' :: signs) rest
  | _ => none

def string : Reader String
  | '"' :: rest =>
    (stringChars (rest.length + 1) rest).map fun (cs, rest) => (String.ofList cs, rest)
  | 'r' :: rest => (rawChars rest).map fun (cs, rest) => (String.ofList cs, rest)
  | _ => none

def byteString : Reader Unit
  | 'b' :: '"' :: rest => byteChars (rest.length + 1) rest
  | 'b' :: 'r' :: rest => (rawChars rest).map fun (_, rest) => ((), rest)
  | _ => none

def character : Reader Char
  | '\'' :: '\\' :: rest =>
    match escape 0 rest with
    | some (c, '\'' :: rest) => some (c, rest)
    | _ => none
  | '\'' :: c :: '\'' :: rest => some (c, rest)
  | _ => none

def byte : Reader Nat
  | 'b' :: '\'' :: '\\' :: 'x' :: rest =>
    match Reader.escapedByte rest with
    | some (n, '\'' :: rest) => some (n, rest)
    | _ => none
  | 'b' :: '\'' :: '\\' :: 'u' :: _ => none
  | 'b' :: rest =>
    match character rest with
    | some (c, rest) => if c.toNat < 0x80 then some (c.toNat, rest) else none
    | none => none
  | _ => none

end AutomationNet.Ron
