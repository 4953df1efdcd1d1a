/-!
# Rounding

* `roundEven` : the whole number nearest to a ratio, a tie going to the even one
-/

namespace AutomationNet

/-- The whole number nearest to `num / den`, a tie going to the even one. -/
def roundEven (num den : Nat) : Nat :=
  let below := num / den
  let excess := 2 * (num % den)
  if den < excess ∨ (excess = den ∧ below % 2 = 1) then below + 1 else below

end AutomationNet
