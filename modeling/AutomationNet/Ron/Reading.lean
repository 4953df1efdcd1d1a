import AutomationNet.Ron.Number
import AutomationNet.Ron.Text

/-!
# Reading RON

A text is read into a value whose form still tells how it was written; what reads descriptions then
asks for the forms it wants. Values are nested to a bounded depth: the inside of a list, tuple, record
or map counts as one level, each of its parts as another one, and so does the inside of `Some`. The
head of a text can allow the parentheses around that inside to be left out, or those of the inside.

* `Ron.Extensions` : what the head of a text can switch on
* `Ron.separated` : parts with commas between them and possibly behind the last one
* `Ron.wrapped` : a value with all of its parentheses
* `Ron.bare` : a value in `Some` that may have left out its own
* `Ron.value` : a value to a depth
* `Ron.parse` : the value of a whole text, with its extensions
-/

namespace AutomationNet.Ron

/-- How many levels a value may have. -/
def depthLimit : Nat := 128

/-! ## Extensions -/

/-- What the head of a text can switch on. -/
structure Extensions where
  /-- The inside of `Some` may stand alone. -/
  implicitSome : Bool := false
  explicitNames : Bool := false
  /-- What stands in `Some` may leave out the parentheses of its own. -/
  unwrapped : Bool := false
  deriving DecidableEq, Repr

/-- Switches an extension on; one of them makes no difference to descriptions. -/
def Extensions.enable (e : Extensions) (name : String) : Option Extensions :=
  if name = "implicit_some" then some { e with implicitSome := true }
  else if name = "explicit_struct_names" then some { e with explicitNames := true }
  else if name = "unwrap_variant_newtypes" then some { e with unwrapped := true }
  else if name = "unwrap_newtypes" then some e
  else none

/-! ## Parts -/

def comma (text : List Char) : Option (Bool × List Char) :=
  match skipBlank text with
  | some (',' :: rest) => (skipBlank rest).map (true, ·)
  | some rest => some (false, rest)
  | none => none

/-- Parts up to a closing character, at most `budget` of them. -/
def separated (closing : Char) (part : Reader α) : (budget : Nat) → Reader (List α)
  | 0, _ => none
  | budget + 1, text =>
    match skipBlank text with
    | none => none
    | some text =>
      if text.head? = some closing then some ([], text.drop 1)
      else
        match part text with
        | none => none
        | some (a, rest) =>
          match comma rest with
          | some (true, rest) =>
            (separated closing part budget rest).map fun (parts, rest) => (a :: parts, rest)
          | some (false, rest) =>
            if rest.head? = some closing then some ([a], rest.drop 1) else none
          | none => none

def paired (first : Reader α) (second : Reader β) : Reader (α × β) := fun text =>
  match first text with
  | none => none
  | some (a, rest) =>
    match skipBlank rest with
    | some (':' :: rest) =>
      match (skipBlank rest).bind second with
      | some (b, rest) => some ((a, b), rest)
      | none => none
    | _ => none

/-! ## Values

`one` reads a value one level further in, `two` one that is two levels further in, and `inside` what
`Some` holds, one level further in; there is none where the depth is used up. -/

def parts (closing : Char) (one : Option (Reader Value)) (part : Option (Reader α)) :
    Reader (List α) := fun text =>
  match one with
  | none => none
  | some _ => separated closing (part.getD fun _ => none) (text.length + 1) text

/-- A value in `Some`, after the word. Without parentheses it needs the extension that lets it stand
alone. -/
def optionOf (e : Extensions) (inside one : Option (Reader Value)) : Reader Value := fun text =>
  match skipBlank text with
  | none => none
  | some ('(' :: rest) =>
    match (skipBlank rest).bind (inside.getD fun _ => none) with
    | none => none
    | some (value, rest) =>
      match comma rest with
      | some (_, ')' :: rest) => some (.some value, rest)
      | _ => none
  | some rest =>
    if e.implicitSome then
      ((one.getD fun _ => none) rest).map fun (value, rest) => (.some value, rest)
    else none

/-- Whether fields with names follow an opening parenthesis. -/
def beginsFields (text : List Char) : Bool :=
  match (skipBlank text).bind word with
  | some (_, rest) =>
    match skipBlank rest with
    | some (':' :: _) => true
    | _ => false
  | none => false

def parenthesized (name : Option String) (one two : Option (Reader Value)) : Reader Value :=
  fun text =>
    if beginsFields text then
      (parts ')' one (two.map (paired word)) text).map fun (fields, rest) =>
        (.record name fields, rest)
    else (parts ')' one two text).map fun (items, rest) => (.tuple name items, rest)

def named (name : String) (one two : Option (Reader Value)) : Reader Value := fun text =>
  match skipBlank text with
  | some ('(' :: rest) => parenthesized (some name) one two rest
  | some _ => some (.word name, text)
  | none => none

/-- A value that no word begins. -/
def unnamed (one two : Option (Reader Value)) : Reader Value
  | '(' :: rest => parenthesized none one two rest
  | '[' :: rest => (parts ']' one two rest).map fun (items, rest) => (.list items, rest)
  | '\x7b' :: rest =>
    (parts '\x7d' one (two.map fun two => paired two two) rest).map fun (entries, rest) =>
      (.map entries, rest)
  | '\'' :: rest => (character ('\'' :: rest)).map fun (c, rest) => (.char c, rest)
  | 'b' :: '\'' :: rest =>
    (byte ('b' :: '\'' :: rest)).map fun (n, rest) => (.number (.whole n), rest)
  | 'b' :: rest => (byteString ('b' :: rest)).map fun (_, rest) => (.bytes, rest)
  | c :: rest =>
    if c = '"' ∨ c = 'r' then (string (c :: rest)).map fun (s, rest) => (.string s, rest)
    else if c.isDigit || c == '+' || c == '-' || c == '.' then number (c :: rest)
    else none
  | [] => none

def wordValues : List (List Char × Value) :=
  [(['t', 'r', 'u', 'e'], .bool true), (['f', 'a', 'l', 's', 'e'], .bool false),
    (['N', 'o', 'n', 'e'], .none), (['i', 'n', 'f'], .notFinite),
    (['i', 'n', 'f', 'f', '3', '2'], .notFinite), (['i', 'n', 'f', 'f', '6', '4'], .notFinite),
    (['N', 'a', 'N'], .notFinite), (['N', 'a', 'N', 'f', '3', '2'], .notFinite),
    (['N', 'a', 'N', 'f', '6', '4'], .notFinite)]

def wordValue : Reader Value := fun text =>
  wordValues.findSome? fun entry => (keyword entry.1 text).map fun (_, rest) => (entry.2, rest)

/-- Any value that carries all of its parentheses; `inside` reads what `Some` holds. -/
def wrapped (e : Extensions) (inside one two : Option (Reader Value)) : Reader Value := fun text =>
  match wordValue text with
  | some result => some result
  | none =>
    match keyword ['S', 'o', 'm', 'e'] text with
    | some (_, rest) => optionOf e inside one rest
    | none =>
      match text with
      | '(' :: ')' :: rest => some (.unit, rest)
      | text =>
        match word text with
        | some (name, rest) => named name one two rest
        | none => unnamed one two text

/-- What follows a quoted text, if the text begins with one that `read` takes. -/
def skipQuoted (read : Reader α) (text : List Char) : List Char := (read text).elim text (·.2)

/-- Whether a comma parts the text before a closing bracket ends it, and more than that bracket
follows the comma. `depth` brackets are open inside the text. -/
def isParted : (budget depth : Nat) → List Char → Option Bool
  | 0, _, _ => none
  | budget + 1, depth, text =>
    match (skipBlank text).map fun text =>
        skipQuoted byteString (skipQuoted string (skipQuoted character text)) with
    | none => none
    | some [] => none
    | some (c :: rest) =>
      if c ∈ ['(', '[', '\x7b'] then isParted budget (depth + 1) rest
      else if c ∈ [')', ']', '\x7d'] then
        match depth with
        | 0 => some false
        | depth + 1 => isParted budget depth rest
      else if c = ',' ∧ depth = 0 then (skipBlank rest).map fun rest => rest.head? ≠ some ')'
      else isParted budget depth rest

/-- A value in `Some` that may have left out the parentheses of its own: nothing at all, fields with
names, several items, or any single value. The closing parenthesis belongs to `Some`. -/
def bare (e : Extensions) (inside one two : Option (Reader Value)) : Reader Value := fun text =>
  if text.head? = some ')' then some (.unit, text)
  else if beginsFields text then
    (parts ')' one (two.map (paired word)) text).map fun (fields, rest) =>
      (.record none fields, ')' :: rest)
  else
    match isParted (text.length + 1) 0 text with
    | none => none
    | some true => (parts ')' one two text).map fun (items, rest) => (.tuple none items, ')' :: rest)
    | some false => wrapped e inside one two text

/-- Any value with so many levels inside it. In `Some` it may be bare. -/
def value (e : Extensions) : (depth : Nat) → (inSome : Bool) → Reader Value
  | 0, inSome => (if inSome then bare else wrapped) e none none none
  | 1, inSome =>
    (if inSome then bare else wrapped) e (some (value e 0 e.unwrapped)) (some (value e 0 false)) none
  | depth + 2, inSome =>
    (if inSome then bare else wrapped) e (some (value e (depth + 1) e.unwrapped))
      (some (value e (depth + 1) false)) (some (value e depth false))

/-! ## Whole texts -/

def marks : List (List Char) → Reader Unit
  | [], text => some ((), text)
  | mark :: more, text =>
    match Reader.literal mark text with
    | some (_, rest) => (skipBlank rest).bind (marks more)
    | none => none

def extensionNames : (budget : Nat) → Extensions → Reader Extensions
  | 0, _, _ => none
  | budget + 1, e, text =>
    match word text with
    | none => none
    | some (name, rest) =>
      match e.enable name, comma rest with
      | some e, some (true, rest) =>
        if (rest.head?.map Word.goesOn).getD false then extensionNames budget e rest
        else some (e, rest)
      | some e, some (false, rest) => some (e, rest)
      | _, _ => none

def heads : (budget : Nat) → Extensions → Reader Extensions
  | 0, _, _ => none
  | budget + 1, e, text =>
    if text.head? = some '#' then
      match marks [['#'], ['!'], ['['], ['e', 'n', 'a', 'b', 'l', 'e'], ['(']] text with
      | none => none
      | some (_, rest) =>
        match extensionNames rest.length e rest with
        | none => none
        | some (e, rest) =>
          match (skipBlank rest).bind (marks [[')'], [']']]) with
          | some (_, rest) => heads budget e rest
          | none => none
    else some (e, text)

def parse (text : String) : Option (Extensions × Value) := do
  let chars ← skipBlank text.toList
  let (extensions, chars) ← heads (chars.length + 1) {} chars
  let (value, rest) ← value extensions depthLimit false chars
  let rest ← skipBlank rest
  if rest.isEmpty then some (extensions, value) else none

end AutomationNet.Ron
