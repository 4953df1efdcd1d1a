import AutomationNet.Text.Reader

/-!
# The words and strings of TOML

* `Toml.skipSpace`, `Toml.lineEnd`, `Toml.skipLines` : blanks, the end of a line, and empty lines
* `Toml.string` : the four kinds of strings
* `Toml.key`, `Toml.keyPath` : simple and dotted keys
-/

namespace AutomationNet.Toml

/-! ## Blanks and lines -/

def isSpace (c : Char) : Bool := c == ' ' || c == '\t'

def skipSpace (text : List Char) : List Char := text.dropWhile isSpace

/-- The characters of comments and strings: no control characters but the tab. -/
def isPlain (c : Char) : Bool := c == '\t' || (0x20 ≤ c.toNat && c.toNat ≠ 0x7f)

def skipComment : List Char → List Char
  | '#' :: rest => rest.dropWhile isPlain
  | text => text

def newline : Reader Unit
  | '\n' :: rest => some ((), rest)
  | '\r' :: '\n' :: rest => some ((), rest)
  | _ => none

/-- The rest of a line: blanks, an optional comment, and a line break or the end of the text. -/
def lineEnd : Reader Unit := fun text =>
  match skipComment (skipSpace text) with
  | [] => some ((), [])
  | rest => newline rest

/-- What follows blanks, comments and at most `count` line breaks. -/
def skipBreaks (count : Nat) (text : List Char) : List Char :=
  let rest := skipComment (skipSpace text)
  match count, newline rest with
  | count + 1, some (_, rest) => skipBreaks count rest
  | _, _ => rest

def skipLines (text : List Char) : List Char := skipBreaks text.length text

/-! ## Strings -/

def codePoint (count : Nat) : Reader Char := fun text =>
  if text.length < count then none
  else
    match (Numeral.hex? (text.take count)).bind Numeral.char? with
    | some c => some (c, text.drop count)
    | none => none

def escape : Reader Char
  | 'b' :: rest => some ('\x08', rest)
  | 't' :: rest => some ('\t', rest)
  | 'n' :: rest => some ('\n', rest)
  | 'e' :: rest => some ('\x1b', rest)
  | 'f' :: rest => some ('\x0c', rest)
  | 'r' :: rest => some ('\r', rest)
  | '"' :: rest => some ('"', rest)
  | '\\' :: rest => some ('\\', rest)
  | 'x' :: rest => codePoint 2 rest
  | 'u' :: rest => codePoint 4 rest
  | 'U' :: rest => codePoint 8 rest
  | _ => none

def basicChars : (budget : Nat) → Reader (List Char)
  | 0, _ => none
  | _, [] => none
  | _, '"' :: rest => some ([], rest)
  | budget + 1, '\\' :: rest =>
    match escape rest with
    | some (c, rest) => (basicChars budget rest).map fun (cs, rest) => (c :: cs, rest)
    | none => none
  | budget + 1, c :: rest =>
    if isPlain c then (basicChars budget rest).map fun (cs, rest) => (c :: cs, rest) else none

def literalChars : Reader (List Char) := fun text =>
  match text.dropWhile fun c => isPlain c && c ≠ '\'' with
  | '\'' :: rest => some (text.takeWhile fun c => isPlain c && c ≠ '\'', rest)
  | _ => none

/-- What follows the quotes at the end of a string of several lines: three of them close it, and up
to two more belong to it. -/
def closing (quote : Char) (text : List Char) : Option (List Char × List Char) :=
  let run := (text.takeWhile (· == quote)).length
  if run < 3 then none
  else some (List.replicate (min (run - 3) 2) quote, text.drop (min run 5))

/-- What follows a backslash at the end of a line: all blanks and line breaks up to the next
character. -/
def joinedLine (count : Nat) (text : List Char) : Option (List Char) :=
  match newline (skipSpace text) with
  | none => none
  | some (_, rest) =>
    match count with
    | 0 => some rest
    | count + 1 => some ((joinedLine count rest).getD (skipSpace rest))

def linesChars (quote : Char) : (budget : Nat) → Reader (List Char)
  | 0, _ => none
  | _, [] => none
  | budget + 1, c :: rest =>
    match closing quote (c :: rest) with
    | some result => some result
    | none =>
      match newline (c :: rest) with
      | some (_, rest) =>
        (linesChars quote budget rest).map fun (cs, rest) => ('\n' :: cs, rest)
      | none =>
        if c = '\\' ∧ quote = '"' then
          match joinedLine rest.length rest with
          | some rest => linesChars quote budget rest
          | none =>
            match escape rest with
            | some (c, rest) =>
              (linesChars quote budget rest).map fun (cs, rest) => (c :: cs, rest)
            | none => none
        else if isPlain c then
          (linesChars quote budget rest).map fun (cs, rest) => (c :: cs, rest)
        else none

/-- A string of several lines after its opening quotes, with a first line break left out. -/
def lines (quote : Char) : Reader (List Char) := fun text =>
  let text := match newline text with
    | some (_, rest) => rest
    | none => text
  linesChars quote (text.length + 1) text

def lineString : Reader (List Char)
  | '"' :: rest => basicChars (rest.length + 1) rest
  | '\'' :: rest => literalChars rest
  | _ => none

def string : Reader (List Char)
  | '"' :: '"' :: '"' :: rest => lines '"' rest
  | '\'' :: '\'' :: '\'' :: rest => lines '\'' rest
  | text => lineString text

/-! ## Keys -/

def isBare (c : Char) : Bool := c.isAlphanum || c == '_' || c == '-'

def key : Reader String := fun text =>
  match lineString text with
  | some (cs, rest) => some (String.ofList cs, rest)
  | none =>
    let name := text.takeWhile isBare
    if name.isEmpty then none else some (String.ofList name, text.dropWhile isBare)

/-- A key behind the tables it stands in, with dots between them; at most `count` names in all. -/
def names : (count : Nat) → Reader (List String × String)
  | 0, _ => none
  | count + 1, text =>
    match key text with
    | none => none
    | some (name, rest) =>
      match skipSpace rest with
      | '.' :: rest =>
        (names count (skipSpace rest)).map fun ((path, last), rest) => ((name :: path, last), rest)
      | rest => some (([], name), rest)

def nameLimit : Nat := 80

/-- A simple or dotted key, and the blanks behind it. -/
def keyPath : Reader (List String × String) := names nameLimit

end AutomationNet.Toml
