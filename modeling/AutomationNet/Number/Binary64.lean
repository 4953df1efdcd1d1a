import AutomationNet.Number.Rounding

/-!
# Double-precision numbers

A number is a sign and the *rank* of its absolute value among the doubles: rank `0` is zero, each
rank is one step above the one before, `infinityRank` is infinity, and everything above it is not a
number. On finite ranks the value is `scaled r` units of `2 ^ -1074`, so rounding, comparing and
calculating are statements about natural numbers.

* `Binary64.scaled` : the value of a finite rank, in units of `2 ^ -1074`
* `Binary64.nearestRank` : the rank nearest to a ratio, a tie going to the even rank
* `Binary64.key` : the integer that orders the numbers and puts both zeros at `0`
* `Binary64.totalKey` : the integer that also puts `-0` below `0`
* `Binary64.eq`, `Binary64.lt`, `Binary64.le` : comparison, false as soon as one side is no number
-/

namespace AutomationNet

/-- A double-precision number: its sign and the rank of its absolute value. -/
structure Binary64 where
  /-- The sign, also of a zero and of what is not a number. -/
  negative : Bool
  rank : Nat
  deriving DecidableEq, Inhabited, Repr

namespace Binary64

/-- How many ranks share one exponent. -/
def binade : Nat := 1 <<< 52

def infinityRank : Nat := 2047 * binade

/-- The unit of `scaled` is `2 ^ -unitExponent`. -/
def unitExponent : Nat := 1074

def zero : Binary64 := ⟨false, 0⟩

def infinity : Binary64 := ⟨false, infinityRank⟩

def nan : Binary64 := ⟨false, infinityRank + (1 <<< 51)⟩

def neg (x : Binary64) : Binary64 := ⟨!x.negative, x.rank⟩

def withSign (negative : Bool) (x : Binary64) : Binary64 := ⟨negative, x.rank⟩

def isNaN (x : Binary64) : Bool := infinityRank < x.rank

def isFinite (x : Binary64) : Bool := x.rank < infinityRank

def isInfinite (x : Binary64) : Bool := x.rank = infinityRank

/-- Both zeros. -/
def isZero (x : Binary64) : Bool := x.rank = 0

/-- The value of a finite rank in units of `2 ^ -1074`: below the first binade the rank itself,
from there on the rank's fraction with a leading one, doubled once per binade. -/
def scaled (rank : Nat) : Nat :=
  if rank < binade then rank else (binade + rank % binade) <<< (rank / binade - 1)

/-- The rank nearest to `num / den` units, up to `infinityRank`; a tie goes to the even rank. -/
def nearestUnits (num den : Nat) : Nat :=
  let shift := (num / den).log2 - 52
  min (shift * binade + roundEven num (den <<< shift)) infinityRank

/-- The rank nearest to the ratio `num / den`. -/
def nearestRank (num den : Nat) : Nat := nearestUnits (num <<< unitExponent) den

def ofRatio (num den : Nat) : Binary64 := ⟨false, nearestRank num den⟩

def ofNat (n : Nat) : Binary64 := ofRatio n 1

def ofInt (i : Int) : Binary64 := ⟨decide (i < 0), nearestRank i.natAbs 1⟩

def one : Binary64 := ofNat 1

def ofBool (b : Bool) : Binary64 := if b then one else zero

/-! ## Order -/

/-- The signed rank: it orders the numbers and takes both zeros to `0`. -/
def key (x : Binary64) : Int := if x.negative then -(x.rank : Int) else x.rank

/-- The signed rank with `-0` below `0`: the order in which no two numbers are level. -/
def totalKey (x : Binary64) : Int := if x.negative then -(x.rank : Int) - 1 else x.rank

def eq (x y : Binary64) : Bool := !x.isNaN && !y.isNaN && x.key == y.key

def lt (x y : Binary64) : Bool := !x.isNaN && !y.isNaN && decide (x.key < y.key)

def le (x y : Binary64) : Bool := !x.isNaN && !y.isNaN && decide (x.key ≤ y.key)

/-- A number counts as true unless it is a zero or no number at all. -/
def truthy (x : Binary64) : Bool := !x.isZero && !x.isNaN

/-! ## Arithmetic on finite numbers -/

def div (x y : Binary64) : Binary64 :=
  ⟨x.negative != y.negative, nearestRank (scaled x.rank) (scaled y.rank)⟩

def mul (x y : Binary64) : Binary64 :=
  ⟨x.negative != y.negative,
    nearestUnits (scaled x.rank * scaled y.rank) (1 <<< unitExponent)⟩

/-- The rounded sum of the absolute values of two finite numbers. -/
def addAbs (x y : Binary64) : Binary64 :=
  ⟨false, nearestUnits (scaled x.rank + scaled y.rank) 1⟩

/-- The value of a finite number cut to a whole one. -/
def truncate (x : Binary64) : Int :=
  let whole : Nat := scaled x.rank >>> unitExponent
  if x.negative then -(whole : Int) else whole

/-- The absolute value rounded to a whole number, a half going up. -/
def roundAbs (x : Binary64) : Nat := (2 * scaled x.rank + 1 <<< unitExponent) >>> (unitExponent + 1)

/-- A finite number without a fractional part. -/
def isWhole (x : Binary64) : Bool := x.isFinite && scaled x.rank % 1 <<< unitExponent == 0

/-! ## The bit pattern -/

/-- The 64 bits as a number: the sign above the rank. -/
def bits (x : Binary64) : Nat := (if x.negative then 1 <<< 63 else 0) + x.rank

end Binary64

end AutomationNet
