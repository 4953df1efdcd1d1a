import AutomationNet.Guard.Entity
import AutomationNet.Guard.Expr
import AutomationNet.Guard.Parser
import AutomationNet.Text.Blank

/-!
# Guards

A guard is a condition on the inputs of a net. Its text is decoded, parsed and checked once, when
the net is assembled. A blank or absent text is the guard that always holds.

* `Guard` : the text and its expression
* `Guard.compile` : the guard of a text
* `Guard.holds` : whether a guard holds on the values of the inputs
* `Guard.triggers` : the edges a guard watches, each once
-/

namespace AutomationNet

/-- A condition on the inputs. -/
structure Guard where
  source : Option String := none
  expr : Option Guard.Expr := none
  deriving DecidableEq, Inhabited

namespace Guard

/-- The elements of a list without their repetitions, in the order in which they come first. -/
def distinct [DecidableEq α] (items : List α) : List α :=
  items.foldl (fun seen item => if item ∈ seen then seen else seen ++ [item]) []

/-- The guard of a text that is not blank. -/
def compileText (inputs : List String) (source : String) : Except Error Guard := do
  let tree ← (parse (Entity.decode source)).mapError fun failure =>
    .ungrammatical source (failure.offset + 1)
  let expr ← resolve inputs tree
  return { source := some source, expr := some expr }

/-- The guard of an optional text over the declared inputs. -/
def compile (inputs : List String) (source : Option String) : Except Error Guard :=
  match source.filter fun text => !Blank.isBlankText text with
  | none => .ok {}
  | some text => compileText inputs text

/-- Whether a guard holds on the values of the inputs. -/
def holds (guard : Guard) (s : Snapshot) : Bool :=
  match guard.expr with
  | none => true
  | some expr => (expr.eval s).truthy

def edges (guard : Guard) : List (EdgeKind × String) := (guard.expr.map (·.edges)).getD []

/-- The edges a guard watches, each once. -/
def triggers (guard : Guard) : List (EdgeKind × String) := distinct guard.edges

end Guard

end AutomationNet
