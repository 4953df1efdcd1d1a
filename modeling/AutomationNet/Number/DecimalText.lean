import AutomationNet.Number.Shortest

/-!
# Decimal texts of doubles

Writing takes the shortest decimal and a `DecimalStyle`, the record of what one written format
decides: which exponents are written positionally, whether whole numbers keep a point, and where a
tie goes. Reading rounds the decimal that a text spells to the nearest double.

* `DecimalStyle.render` : the text of a double in a style
* `Binary64.fixed` : a fixed number of decimal places, a tie going to the even last digit
* `Binary64.ofDecimal` : the double nearest to a decimal
* `Binary64.ofText?` : the double a text spells
* `Binary64.roundText?` : the same in a narrower format
-/

namespace AutomationNet

/-- What a written format of doubles decides. -/
structure DecimalStyle where
  /-- Whether a number whose leading digit has this exponent is written positionally. -/
  positional : Int → Bool
  wholePoint : Bool
  tie : Decimal.Tie

namespace DecimalStyle

/-- Plain positional text: no exponent, and whole numbers without a point. -/
def plain : DecimalStyle := ⟨fun _ => true, false, .up⟩

/-- Digits with the point put where the exponent wants it. -/
def place (wholePoint : Bool) (digits : List Char) (exponent : Int) : List Char :=
  if 0 ≤ exponent then
    digits ++ List.replicate exponent.toNat '0' ++ (if wholePoint then ['.', '0'] else [])
  else
    let places := (-exponent).toNat
    if places < digits.length then
      digits.take (digits.length - places) ++ '.' :: digits.drop (digits.length - places)
    else
      '0' :: '.' :: List.replicate (places - digits.length) '0' ++ digits

def scientific (digits : List Char) (leading : Int) : List Char :=
  digits.take 1 ++ (if digits.length = 1 then [] else '.' :: digits.drop 1) ++
    'e' :: (if leading < 0 then '-' else '+') :: Nat.toDigits 10 leading.natAbs

def renderRank (style : DecimalStyle) (rank : Nat) : List Char :=
  if rank = 0 then place style.wholePoint ['0'] 0
  else
    let decimal := Decimal.shortest style.tie rank
    let digits := Nat.toDigits 10 decimal.digits
    let leading := decimal.exponent + digits.length - 1
    if style.positional leading then place style.wholePoint digits decimal.exponent
    else scientific digits leading

/-- The text of a double. What is no number has no sign. -/
def render (style : DecimalStyle) (x : Binary64) : String :=
  if x.isNaN then "NaN"
  else
    let digits := if x.isInfinite then ['i', 'n', 'f'] else renderRank style x.rank
    String.ofList (if x.negative then '-' :: digits else digits)

end DecimalStyle

namespace Binary64

def toText (x : Binary64) : String := DecimalStyle.plain.render x

/-- A finite number with a fixed number of places after the point. The exact value is rounded, a
tie going to the even last digit. -/
def fixed (places : Nat) (x : Binary64) : String :=
  let digits := Nat.toDigits 10 (roundEven (scaled x.rank * Nat.pow 10 places) (1 <<< unitExponent))
  let padded := List.replicate (places + 1 - digits.length) '0' ++ digits
  let cut := padded.length - places
  String.ofList ((if x.negative then ['-'] else []) ++ padded.take cut ++ '.' :: padded.drop cut)

/-! ## Reading -/

/-- The number that `nearest` rounds `digits * 10 ^ exponent` to, for a format without numbers beyond
the doubles. Exponents far outside their range are settled without computing the power. -/
def roundDecimal (nearest : Nat → Nat → Binary64) (digits : Nat) (exponent : Int) : Binary64 :=
  let length : Int := (Nat.toDigits 10 digits).length
  if digits = 0 then zero
  else if 320 < length + exponent then infinity
  else if length + exponent < -340 then zero
  else if 0 ≤ exponent then nearest (digits * Nat.pow 10 exponent.toNat) 1
  else nearest digits (Nat.pow 10 (-exponent).toNat)

def ofDecimal (digits : Nat) (exponent : Int) : Binary64 := roundDecimal ofRatio digits exponent

/-- The natural number that digits spell, continuing one read so far. -/
def digitsValue (start : Nat) (digits : List Char) : Nat := Nat.ofDigitChars 10 digits start

/-- An optional sign: whether it is a minus, and what follows it. -/
def splitSign : List Char → Bool × List Char
  | '+' :: rest => (false, rest)
  | '-' :: rest => (true, rest)
  | rest => (false, rest)

/-- The exponent part of a decimal text, which must be all that is left. -/
def exponentOf? : List Char → Option Int
  | [] => some 0
  | c :: rest =>
    if c = 'e' ∨ c = 'E' then
      let (negative, digits) := splitSign rest
      if digits.isEmpty || !digits.all Char.isDigit then none
      else
        let value : Nat := digitsValue 0 digits
        some (if negative then -(value : Int) else value)
    else none

/-- An unsigned decimal text, with a digit and at most one point and exponent. -/
def roundUnsigned? (nearest : Nat → Nat → Binary64) (text : List Char) : Option Binary64 :=
  let whole := text.takeWhile Char.isDigit
  let rest := text.dropWhile Char.isDigit
  let (fraction, rest) :=
    match rest with
    | '.' :: rest => (rest.takeWhile Char.isDigit, rest.dropWhile Char.isDigit)
    | rest => ([], rest)
  if whole.isEmpty && fraction.isEmpty then none
  else
    (exponentOf? rest).map fun exponent =>
      roundDecimal nearest (digitsValue 0 (whole ++ fraction)) (exponent - fraction.length)

/-- The number that `nearest` rounds what a text spells to: an optional sign and a decimal text,
`inf`, `infinity` or `nan` in any case. -/
def roundText? (nearest : Nat → Nat → Binary64) (text : List Char) : Option Binary64 :=
  let (negative, rest) := splitSign text
  let word := rest.map Char.toLower
  let value? :=
    if word = ['i', 'n', 'f'] ∨ word = "infinity".toList then some infinity
    else if word = ['n', 'a', 'n'] then some nan
    else roundUnsigned? nearest rest
  value?.map (withSign negative)

def ofText? (text : List Char) : Option Binary64 := roundText? ofRatio text

/-! ## The bit pattern as text -/

def hexBits (x : Binary64) : String :=
  let digits := Nat.toDigits 16 x.bits
  String.ofList (List.replicate (16 - digits.length) '0' ++ digits)

end Binary64

end AutomationNet
