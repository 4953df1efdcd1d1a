import AutomationNet.Number.Binary64

/-!
# Unchecked guard expressions

What the guard grammar makes of a text, before names and calls are checked.

* `Comparison` : the six comparisons of two numbers
* `Guard.Syntax` : the trees
-/

namespace AutomationNet

inductive Comparison where
  | eq
  | ne
  | lt
  | le
  | gt
  | ge
  deriving DecidableEq, Repr

namespace Comparison

/-- The outcome of a comparison. What is no number differs from everything, itself included. -/
def holds : Comparison → Binary64 → Binary64 → Bool
  | .eq, x, y => x.eq y
  | .ne, x, y => !x.eq y
  | .lt, x, y => x.lt y
  | .le, x, y => x.le y
  | .gt, x, y => y.lt x
  | .ge, x, y => y.le x

end Comparison

namespace Guard

inductive Syntax where
  | bool (value : Bool)
  | number (value : Binary64)
  | string (text : String)
  | ident (name : String)
  | call (function : String) (arguments : List Syntax)
  | not (inner : Syntax)
  | and (left right : Syntax)
  | or (left right : Syntax)
  | compare (op : Comparison) (left right : Syntax)
  deriving Repr, Inhabited

end Guard

end AutomationNet
