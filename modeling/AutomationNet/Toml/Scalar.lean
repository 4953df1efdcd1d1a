import AutomationNet.Number.DecimalText
import AutomationNet.Text.Numeral
import AutomationNet.Toml.Basic

/-!
# TOML scalars

What stands for a value without quotes or brackets: whole numbers in four bases, decimal numbers,
truth values, dates and times.

* `Toml.wholeNumber?`, `Toml.isDecimal` : numbers
* `Toml.isDateTime` : dates, times, and both with an optional offset
* `Toml.scalar?` : any of them
-/

namespace AutomationNet.Toml

/-! ## Numbers -/

/-- Digits with single underscores between them, without these. -/
def ungrouped (isDigit : Char → Bool) : List Char → Option (List Char)
  | [] => none
  | [c] => if isDigit c then some [c] else none
  | c :: '_' :: rest =>
    if isDigit c then (ungrouped isDigit rest).map (c :: ·) else none
  | c :: rest => if isDigit c then (ungrouped isDigit rest).map (c :: ·) else none

def baseValue (base : Nat) (digits : List Char) : Nat :=
  digits.foldl (fun n c => base * n + (Numeral.hexDigit? c).getD 0) 0

def isDigitOf (base : Nat) (c : Char) : Bool :=
  ((Numeral.hexDigit? c).map fun digit => decide (digit < base)).getD false

def baseNumber? (base : Nat) (digits : List Char) : Option Int :=
  (ungrouped (isDigitOf base) digits).map fun digits => baseValue base digits

def decimalDigits? (text : List Char) : Option (List Char) :=
  match ungrouped Char.isDigit text with
  | some ('0' :: _ :: _) => none
  | digits => digits

/-- A whole number; only a decimal one may have a sign. -/
def wholeNumber? : List Char → Option Int
  | '0' :: 'x' :: digits => baseNumber? 16 digits
  | '0' :: 'o' :: digits => baseNumber? 8 digits
  | '0' :: 'b' :: digits => baseNumber? 2 digits
  | text =>
    let (negative, rest) := Binary64.splitSign text
    (decimalDigits? rest).map fun digits =>
      let value : Nat := Binary64.digitsValue 0 digits
      if negative then -(value : Int) else value

def isExponent (text : List Char) : Bool :=
  (ungrouped Char.isDigit (Binary64.splitSign text).2).isSome

def splitAt? (property : Char → Bool) (text : List Char) : List Char × Option (List Char) :=
  match text.dropWhile fun c => !property c with
  | [] => (text, none)
  | _ :: rest => (text.takeWhile fun c => !property c, some rest)

/-- Whether a text is a decimal number that is no whole one: with a fraction, an exponent, or both,
and within the range of doubles; or an infinity, or what is no number. -/
def isDecimal (text : List Char) : Bool :=
  let unsigned := (Binary64.splitSign text).2
  if unsigned = ['i', 'n', 'f'] ∨ unsigned = ['n', 'a', 'n'] then true
  else
    let (mantissa, exponent) := splitAt? (fun c => c == 'e' || c == 'E') unsigned
    let (whole, fraction) := splitAt? (· == '.') mantissa
    (exponent.isSome || fraction.isSome) && (decimalDigits? whole).isSome &&
      (fraction.map fun digits => (ungrouped Char.isDigit digits).isSome).getD true &&
      (exponent.map isExponent).getD true &&
      ((Binary64.ofText? (unsigned.filter (· ≠ '_'))).map (·.isFinite)).getD false

/-! ## Dates and times -/

/-- A number of so many digits, and the rest of the text. -/
def fixedDigits (count : Nat) (text : List Char) : Option (Nat × List Char) :=
  if text.length < count then none
  else (Numeral.nat? (text.take count)).map (·, text.drop count)

def daysIn (year month : Nat) : Nat :=
  if month = 2 then
    if year % 4 = 0 ∧ (year % 100 ≠ 0 ∨ year % 400 = 0) then 29 else 28
  else if month = 4 ∨ month = 6 ∨ month = 9 ∨ month = 11 then 30 else 31

def date (text : List Char) : Option (List Char) := do
  let (year, rest) ← fixedDigits 4 text
  let '-' :: rest := rest | none
  let (month, rest) ← fixedDigits 2 rest
  let '-' :: rest := rest | none
  let (day, rest) ← fixedDigits 2 rest
  if 1 ≤ month ∧ month ≤ 12 ∧ 1 ≤ day ∧ day ≤ daysIn year month then some rest else none

def seconds (text : List Char) : Option (List Char) := do
  let (second, rest) ← fixedDigits 2 text
  if second ≤ 60 then
    match rest with
    | '.' :: rest =>
      if (rest.takeWhile Char.isDigit).isEmpty then none else some (rest.dropWhile Char.isDigit)
    | rest => some rest
  else none

/-- What follows a time of day, whose seconds may be left out. -/
def time (text : List Char) : Option (List Char) := do
  let (hour, rest) ← fixedDigits 2 text
  let ':' :: rest := rest | none
  let (minute, rest) ← fixedDigits 2 rest
  if hour ≤ 23 ∧ minute ≤ 59 then
    match rest with
    | ':' :: rest => seconds rest
    | rest => some rest
  else none

def isOffset : List Char → Bool
  | [] => true
  | ['Z'] => true
  | ['z'] => true
  | sign :: rest =>
    (sign == '+' || sign == '-') &&
      match fixedDigits 2 rest with
      | some (hours, ':' :: rest) =>
        match fixedDigits 2 rest with
        | some (minutes, []) => hours ≤ 23 && minutes ≤ 59
        | _ => false
      | _ => false

/-- Whether a text is a date, a time, or a date and a time with an optional offset. -/
def isDateTime (text : List Char) : Bool :=
  match date text with
  | some [] => true
  | some (mark :: rest) =>
    (mark == 'T' || mark == 't' || mark == ' ') && ((time rest).map isOffset).getD false
  | none => time text == some []

/-! ## Scalars -/

def scalar? (text : List Char) : Option Value :=
  match wholeNumber? text with
  | some i => if -Int.pow 2 127 ≤ i ∧ i < Int.pow 2 128 then some (.integer i) else none
  | none =>
    if text = ['t', 'r', 'u', 'e'] ∨ text = ['f', 'a', 'l', 's', 'e'] ∨ isDecimal text ∨
      isDateTime text then some .scalar
    else none

end AutomationNet.Toml
