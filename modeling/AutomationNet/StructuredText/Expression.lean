import AutomationNet.Guard.Basic
import AutomationNet.Number.DecimalText
import AutomationNet.Text.Numeral

/-!
# Guards in structured text

A checked guard becomes an expression of the program. Edge calls become the outputs of trigger
blocks; parentheses are put where the grouping of the tree would be lost without them.

* `StructuredText.triggerName`, `StructuredText.triggerType` : the trigger block of an edge
* `StructuredText.number` : the text of a number
* `StructuredText.expression` : the text of a guard
-/

namespace AutomationNet

def Comparison.operator : Comparison → String
  | .eq => "="
  | .ne => "<>"
  | .lt => "<"
  | .le => "<="
  | .gt => ">"
  | .ge => ">="

namespace StructuredText

open Guard (EdgeKind Expr)

def triggerName (kind : EdgeKind) (input : String) : String := kind.function ++ "_" ++ input

def triggerType : EdgeKind → String
  | .rising => "R_TRIG"
  | .falling => "F_TRIG"

/-- A whole number below `10 ^ 15` is written as an integer, which has no negative zero. -/
def number (x : Binary64) : String :=
  if x.isWhole && x.truncate.natAbs < Nat.pow 10 15 then Numeral.ofInt x.truncate else x.toText

/-- Whether an expression joins two others. -/
def isJoin : Expr → Bool
  | .and _ _ | .or _ _ | .compare _ _ _ => true
  | _ => false

def isOr : Expr → Bool
  | .or _ _ => true
  | _ => false

def isAndOr : Expr → Bool
  | .and _ _ | .or _ _ => true
  | _ => false

def wrap (needed : Bool) (text : String) : String := if needed then "(" ++ text ++ ")" else text

def expression : Expr → String
  | .bool true => "TRUE"
  | .bool false => "FALSE"
  | .number x => number x
  | .input name _ => name
  | .edge kind name _ => triggerName kind name ++ ".Q"
  | .not inner => "NOT " ++ wrap (isJoin inner) (expression inner)
  | .and left right =>
    wrap (isOr left) (expression left) ++ " AND " ++ wrap (isAndOr right) (expression right)
  | .or left right => expression left ++ " OR " ++ wrap (isOr right) (expression right)
  | .compare op left right =>
    wrap (isJoin left) (expression left) ++ " " ++ op.operator ++ " " ++
      wrap (isJoin right) (expression right)

end StructuredText

end AutomationNet
