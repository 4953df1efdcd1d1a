import AutomationNet.Number.Binary64

/-!
# The shortest decimal of a double

A decimal names a double when it lies in the interval of reals that round to it, ends included
exactly for even ranks. `Decimal.shortest` searches the decimal grids with `1, 2, … , 17`
significant digits and stops at the first that has a point in the interval. If a grid has one, so
has the pair of neighbours of the value on that grid, so only these two are tried, in exact
arithmetic; of two hits the nearer wins, and a caller says where an exact tie goes.

* `Decimal` : a natural number of digits and a power of ten
* `Decimal.inside` : the interval test
* `Decimal.onGrid?` : the best point with a given number of digits
* `Decimal.shortest` : the first grid with a hit, and the exact value should there be none
-/

namespace AutomationNet

structure Decimal where
  digits : Nat
  exponent : Int
  deriving DecidableEq, Repr

namespace Decimal

/-- Every finite double is a whole multiple of `10 ^ -shift` up to far more digits than a shortest
decimal has, so grids are counted from there. -/
def shift : Nat := 400

/-- Twice the value of a rank, in the scale in which `halfUnit` stands for one. -/
def numerator (rank : Nat) : Nat := 2 * Binary64.scaled rank * Nat.pow 10 shift

/-- One, in the scale of `numerator`, before the factor `10 ^ shift`. -/
def halfUnit : Nat := 1 <<< (Binary64.unitExponent + 1)

/-- The exponent of the leading decimal digit of a rank other than zero. -/
def leading (rank : Nat) : Int :=
  (Nat.toDigits 10 (numerator rank / halfUnit)).length - 1 - shift

/-- Whether `point * step`, in the scale of `numerator`, rounds to the rank. -/
def inside (rank step point : Nat) : Bool :=
  let low := (Binary64.scaled rank + Binary64.scaled (rank - 1)) * Nat.pow 10 shift
  let high := (Binary64.scaled rank + Binary64.scaled (rank + 1)) * Nat.pow 10 shift
  let spot := point * step
  if rank % 2 = 0 then low ≤ spot && spot ≤ high else low < spot && spot < high

inductive Tie where
  | even
  | up
  deriving DecidableEq, Repr

/-- The better of two neighbouring grid points, the value lying between them. -/
def nearer (tie : Tie) (value step below : Nat) : Nat :=
  match compare (2 * value) ((2 * below + 1) * step) with
  | .lt => below
  | .gt => below + 1
  | .eq =>
    match tie with
    | .up => below + 1
    | .even => if below % 2 = 0 then below else below + 1

/-- The best decimal with `count` significant digits that rounds to the rank, if any does. -/
def onGrid? (tie : Tie) (rank count : Nat) : Option Decimal :=
  let exponent := leading rank + 1 - count
  let step := halfUnit * Nat.pow 10 (exponent + shift).toNat
  let below := numerator rank / step
  let point? :=
    match inside rank step below, inside rank step (below + 1) with
    | true, true => some (nearer tie (numerator rank) step below)
    | true, false => some below
    | false, true => some (below + 1)
    | false, false => none
  point?.map fun point =>
    if point = Nat.pow 10 count then ⟨1, exponent + count⟩ else ⟨point, exponent⟩

/-- The value of a rank, digit for digit. -/
def exact (rank : Nat) : Decimal :=
  ⟨Binary64.scaled rank * Nat.pow 5 Binary64.unitExponent, -(Binary64.unitExponent : Int)⟩

/-- The decimal with the fewest digits that rounds to a rank other than zero. -/
def shortest (tie : Tie) (rank : Nat) : Decimal :=
  ((List.range 17).findSome? fun i => onGrid? tie rank (i + 1)).getD (exact rank)

end Decimal

end AutomationNet
