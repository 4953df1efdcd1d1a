/-!
# Whole numbers as text

Decimal numerals in ASCII digits, with an optional sign where one is read, and the ranges of signed
and unsigned 64-bit numbers.

* `Numeral.ofNat`, `Numeral.ofInt` : the written form
* `Numeral.int?` : an optional sign and at least one digit, nothing else
* `Numeral.int64?`, `Numeral.nat64?` : the same within 64 bits; a natural number takes no minus
* `Numeral.hex?`, `Numeral.char?` : the code points of escapes
-/

namespace AutomationNet.Numeral

def minInt64 : Int := -0x8000000000000000

def maxInt64 : Int := 0x7FFFFFFFFFFFFFFF

def maxNat64 : Nat := 0xFFFFFFFFFFFFFFFF

def ofNat (n : Nat) : String := String.ofList (Nat.toDigits 10 n)

def ofInt (i : Int) : String :=
  String.ofList (if i < 0 then '-' :: Nat.toDigits 10 i.natAbs else Nat.toDigits 10 i.natAbs)

/-- At least one digit and nothing else. -/
def nat? (text : List Char) : Option Nat :=
  if text.isEmpty || !text.all Char.isDigit then none else some (Nat.ofDigitChars 10 text 0)

def int? : List Char → Option Int
  | '+' :: rest => (nat? rest).map Int.ofNat
  | '-' :: rest => (nat? rest).map fun n => -(n : Int)
  | rest => (nat? rest).map Int.ofNat

def int64? (text : List Char) : Option Int :=
  (int? text).filter fun i => minInt64 ≤ i && i ≤ maxInt64

/-- An unsigned 64-bit number, which may carry a plus but no minus. -/
def nat64? (text : List Char) : Option Nat :=
  let digits := match text with
    | '+' :: rest => rest
    | rest => rest
  (nat? digits).filter (· ≤ maxNat64)

def hexDigit? (c : Char) : Option Nat :=
  if c.isDigit then some (c.toNat - '0'.toNat)
  else if 'a' ≤ c ∧ c ≤ 'f' then some (c.toNat - 'a'.toNat + 10)
  else if 'A' ≤ c ∧ c ≤ 'F' then some (c.toNat - 'A'.toNat + 10)
  else none

def hex? (digits : List Char) : Option Nat :=
  digits.foldlM (fun n c => (hexDigit? c).map (16 * n + ·)) 0

/-- The character with a code point, which must not be a surrogate. -/
def char? (n : Nat) : Option Char := if n.isValidChar then some (Char.ofNat n) else none

end AutomationNet.Numeral
