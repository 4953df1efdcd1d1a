import AutomationNet.Number.DecimalText
import AutomationNet.Ron.Basic
import AutomationNet.Text.Reader
import AutomationNet.Text.Word

/-!
# RON numbers

A number is a whole number in base 2, 8, 10 or 16, or a decimal text. Underscores group its digits,
and a suffix fixes its width. Where a text begins with digits that are no whole number of 64 bits,
it is read as a decimal text if that reaches at least as far.

* `Ron.wholeNumber` : whole numbers, or how far the text is one
* `Ron.nearestSingle` : the value of a decimal text of single precision
* `Ron.decimal` : decimal texts, infinities and what is no number
* `Ron.number` : either
-/

namespace AutomationNet.Ron

/-- The text begins with a word and does not go on with it. -/
def keyword (word : List Char) : Reader Unit := fun text =>
  if word.isPrefixOf text && !((text.drop word.length).head?.map Word.goesOn).getD false then
    some ((), text.drop word.length)
  else none

/-! ## Whole numbers -/

/-- What a digit of a whole number can look like, before its base is known. -/
def isWholeChar (c : Char) : Bool := (Numeral.hexDigit? c).isSome || c == '_'

/-- Where a whole number cannot go on: the rest of the text at the fault. -/
abbrev Whole (α : Type) := Except (List Char) α

/-- The digits in front of a text, which go on to `rest`. A digit outside the base and a value
outside the range are faults. -/
def wholeDigits (base limit : Nat) (rest : List Char) : Nat → List Char → Whole Nat
  | value, [] => .ok value
  | value, c :: digits =>
    if c = '_' then wholeDigits base limit rest value digits
    else
      match Numeral.hexDigit? c with
      | none => .error (c :: digits ++ rest)
      | some digit =>
        if limit < value * base then .error rest
        else if base ≤ digit then .error (c :: digits ++ rest)
        else if limit < value * base + digit then .error rest
        else wholeDigits base limit rest (value * base + digit) digits

/-- The base that a text begins with, ten if it names none. -/
def splitBase : List Char → Nat × List Char
  | '0' :: 'b' :: rest => (2, rest)
  | '0' :: 'o' :: rest => (8, rest)
  | '0' :: 'x' :: rest => (16, rest)
  | rest => (10, rest)

def wholeAbs (limit : Nat) (text : List Char) : Whole (Nat × List Char) :=
  let (base, text) := splitBase text
  let digits := text.takeWhile isWholeChar
  let rest := text.dropWhile isWholeChar
  if digits.isEmpty || digits.head? == some '_' then .error text
  else (wholeDigits base limit rest 0 digits).map (·, rest)

/-- A width that a suffix can name: the limits of the absolute value below and above zero. -/
structure Width where
  suffix : List Char
  below : Nat
  above : Nat

def widths : List Width :=
  [⟨['i', '8'], 0x80, 0x7F⟩, ⟨['i', '1', '6'], 0x8000, 0x7FFF⟩,
    ⟨['i', '3', '2'], 0x80000000, 0x7FFFFFFF⟩,
    ⟨['i', '6', '4'], 0x8000000000000000, 0x7FFFFFFFFFFFFFFF⟩,
    ⟨['u', '8'], 0, 0xFF⟩, ⟨['u', '1', '6'], 0, 0xFFFF⟩,
    ⟨['u', '3', '2'], 0, 0xFFFFFFFF⟩, ⟨['u', '6', '4'], 0, Numeral.maxNat64⟩]

/-- The width whose suffix stands behind the first run of digits. -/
def width? (text : List Char) : Option Width :=
  widths.find? fun w => (keyword w.suffix (text.dropWhile isWholeChar)).isSome

def wholeUnsigned (negative : Bool) (text : List Char) : Whole (Int × List Char) := do
  let signed (value : Nat) : Int := if negative then -(value : Int) else value
  match width? text with
  | some w =>
    let (value, rest) ← wholeAbs (if negative then w.below else w.above) text
    return (signed value, rest.drop w.suffix.length)
  | none =>
    let (value, rest) ← wholeAbs (if negative then 0x8000000000000000 else Numeral.maxNat64) text
    return (signed value, rest)

def wholeNumber (text : List Char) : Whole (Int × List Char) :=
  let (negative, rest) := Binary64.splitSign text
  wholeUnsigned negative rest

/-! ## Decimal texts -/

def isDecimalChar (c : Char) : Bool :=
  c.isDigit || c == 'e' || c == 'E' || c == '.' || c == '+' || c == '-' || c == '_'

/-- Drops the underscores, which may stand behind a digit or the mark of the exponent. -/
def ungrouped (allowed : Bool) : List Char → Option (List Char)
  | [] => some []
  | c :: rest =>
    if c = '_' then if allowed then ungrouped allowed rest else none
    else
      let next := if c = '.' then false else allowed || c.isDigit || c == 'e' || c == 'E'
      (ungrouped next rest).map (c :: ·)

/-- The number of single precision nearest to the ratio `num / den`: 24 bits, none of them below
`2 ^ -149`, and infinity from `2 ^ 128` on. A tie goes to the even last bit. -/
def nearestSingle (num den : Nat) : Binary64 :=
  let units := num <<< 149
  let shift := (units / den).log2 - 23
  let value := roundEven units (den <<< shift) <<< shift
  if 1 <<< 277 ≤ value then .infinity else .ofRatio value (1 <<< 149)

def ofDouble (x : Binary64) : Value := if x.isFinite then .number (.double x) else .notFinite

def notFinite (text : List Char) : Option (Value × List Char) :=
  let (_, rest) := Binary64.splitSign text
  [['i', 'n', 'f'], ['N', 'a', 'N']].findSome? fun word =>
    [[], ['f', '3', '2'], ['f', '6', '4']].findSome? fun suffix =>
      (keyword (word ++ suffix) rest).map fun (_, rest) => (.notFinite, rest)

def decimal : Reader Value := fun text =>
  match notFinite text with
  | some result => some result
  | none =>
    let digits := text.takeWhile isDecimalChar
    let rest := text.dropWhile isDecimalChar
    match ungrouped false digits with
    | none => none
    | some digits =>
      match keyword ['f', '3', '2'] rest, keyword ['f', '6', '4'] rest with
      | some (_, rest), _ =>
        (Binary64.roundText? nearestSingle digits).map fun x => (ofDouble x, rest)
      | none, some (_, rest) => (Binary64.ofText? digits).map fun x => (ofDouble x, rest)
      | none, none => (Binary64.ofText? digits).map fun x => (ofDouble x, rest)

/-! ## Numbers -/

/-- Whether more of the text looks like a decimal text than like a whole number. -/
def looksDecimal (text : List Char) : Bool :=
  let (_, rest) := Binary64.splitSign text
  (rest.takeWhile isWholeChar).length < (rest.takeWhile isDecimalChar).length

def number : Reader Value := fun text =>
  if looksDecimal text then decimal text
  else
    match wholeNumber text with
    | .ok (i, rest) => some (.number (.whole i), rest)
    | .error stop =>
      match decimal text with
      | some (value, rest) => if rest.length ≤ stop.length then some (value, rest) else none
      | none => none

end AutomationNet.Ron
