import AutomationNet.Description.Basic

/-!
# Warnings

What a net or a session remarks upon without failing.

* `Warning` : the remarks
* `Warning.message` : their texts
-/

namespace AutomationNet

inductive Warning where
  | unconnected (place : ElementId) (name : String)
  /-- A firing takes more tokens than its place holds. -/
  | clamped (place : ElementId) (mark weight : Nat)
  /-- The accessor has stopped giving a value to an input. -/
  | missingInput (name : String) (kept : Binary64)
  /-- The transition chosen in the last tick cannot fire in this one. -/
  | candidateLost (transition : ElementId)
  deriving DecidableEq, Repr

def Warning.message : Warning → String
  | .unconnected place name => "place " ++ place ++ " (" ++ name ++ ") has no arcs"
  | .clamped place mark weight =>
    "place " ++ place ++ " holds " ++ Numeral.ofNat mark ++ " but firing consumes " ++
      Numeral.ofNat weight ++ ", clamping to 0"
  | .missingInput name kept =>
    "input " ++ name ++ " missing from accessor, keeping " ++ kept.toText
  | .candidateLost transition =>
    "candidate " ++ transition ++ " no longer enabled, skipping"

end AutomationNet
