import AutomationNet.Toml.Scalar
import AutomationNet.Toml.Text

/-!
# Reading TOML

A document is read line by line: headers open tables, and keys get their values in the table of the
last header.

* `Toml.value` : a value to a depth
* `Toml.parse` : the entries of a whole document
-/

namespace AutomationNet.Toml

/-- How deep arrays and inline tables may be nested. -/
def depthLimit : Nat := 80

/-! ## Values -/

/-- The characters that numbers, truth values, dates and times are made of. -/
def isScalarChar (c : Char) : Bool := isBare c || c == '+' || c == '.' || c == ':'

/-- A value without quotes or brackets. The blank between a date and a time belongs to it. -/
def scalarValue : Reader Value := fun text =>
  let first := text.takeWhile isScalarChar
  let rest := text.dropWhile isScalarChar
  match date first, rest with
  | some [], ' ' :: d :: more =>
    if d.isDigit then
      let second := (d :: more).takeWhile isScalarChar
      (scalar? (first ++ ' ' :: second)).map (·, (d :: more).dropWhile isScalarChar)
    else (scalar? first).map (·, rest)
  | _, _ => (scalar? first).map (·, rest)

def items (item : Reader Value) : (budget : Nat) → Reader (List Value)
  | 0, _ => none
  | budget + 1, text =>
    match skipLines text with
    | ']' :: rest => some ([], rest)
    | text =>
      match item text with
      | none => none
      | some (v, rest) =>
        match skipLines rest with
        | ']' :: rest => some ([v], rest)
        | ',' :: rest => (items item budget rest).map fun (vs, rest) => (v :: vs, rest)
        | _ => none

/-- A key with its value; `skip` drops what may stand around the sign between them. -/
def keyValue (skip : List Char → List Char) (value : Reader Value) :
    Reader (List String × String × Value) := fun text =>
  match keyPath text with
  | none => none
  | some ((path, name), rest) =>
    match skip rest with
    | '=' :: rest => (value (skip rest)).map fun (v, rest) => ((path, name, v), rest)
    | _ => none

/-- The entries of an inline table up to its end. Its parts may stand on lines of their own, and a
comma may follow the last entry. -/
def inlineEntries (value : Reader Value) : (budget : Nat) → Entries → Reader Entries
  | 0, _, _ => none
  | budget + 1, entries, text =>
    match skipLines text with
    | '\x7d' :: rest => some (entries, rest)
    | text =>
      match keyValue skipLines value text with
      | none => none
      | some ((path, name, v), rest) =>
        match assignKey path name v .header entries with
        | none => none
        | some entries =>
          match skipLines rest with
          | '\x7d' :: rest => some (entries, rest)
          | ',' :: rest => inlineEntries value budget entries rest
          | _ => none

/-- A table as a value, after its opening brace. -/
def inlineTable (value : Reader Value) : Reader Value := fun text =>
  (inlineEntries value (text.length + 1) [] text).map fun (entries, rest) =>
    (.table .inline entries, rest)

def leaf : Reader Value := fun text =>
  match text with
  | '"' :: _ => (string text).map fun (_, rest) => (.scalar, rest)
  | '\'' :: _ => (string text).map fun (_, rest) => (.scalar, rest)
  | text => scalarValue text

def value : (depth : Nat) → Reader Value
  | 0, text =>
    match text with
    | '[' :: _ => none
    | '\x7b' :: _ => none
    | text => leaf text
  | depth + 1, text =>
    match text with
    | '[' :: rest =>
      (items (value depth) (rest.length + 1) rest).map fun (vs, rest) => (.array vs, rest)
    | '\x7b' :: rest => inlineTable (value depth) rest
    | text => leaf text

/-! ## Documents -/

/-- What has been read of a document: the path of the last header, and all entries. -/
structure Draft where
  header : List String := []
  root : Entries := []

def line (draft : Draft) : Reader Draft
  | '[' :: '[' :: rest =>
    match keyPath (skipSpace rest) with
    | some ((path, name), ']' :: ']' :: rest) =>
      (openElement path name draft.root).map fun root => (⟨path ++ [name], root⟩, rest)
    | _ => none
  | '[' :: rest =>
    match keyPath (skipSpace rest) with
    | some ((path, name), ']' :: rest) =>
      (openTable path name draft.root).map fun root => (⟨path ++ [name], root⟩, rest)
    | _ => none
  | text =>
    match keyValue skipSpace (value depthLimit) text with
    | some ((path, name, v), rest) =>
      (assign draft.header path name v draft.root).map fun root => ({ draft with root }, rest)
    | none => none

def document : (budget : Nat) → Draft → List Char → Option Draft
  | 0, _, _ => none
  | budget + 1, draft, text =>
    match skipLines text with
    | [] => some draft
    | text =>
      match line draft text with
      | none => none
      | some (draft, rest) =>
        match lineEnd rest with
        | some (_, rest) => document budget draft rest
        | none => none

/-- The entries of a whole document, a byte order mark in front of it left out. -/
def parse (text : String) : Option Entries :=
  let chars := match text.toList with
    | '\ufeff' :: rest => rest
    | chars => chars
  (document (chars.length + 1) {} chars).map (·.root)

end AutomationNet.Toml
