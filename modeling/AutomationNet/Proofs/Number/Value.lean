import AutomationNet.Number.Binary64
import Mathlib.Algebra.GroupWithZero.Nat
import Mathlib.Order.Monotone.Basic

/-!
# The values of doubles

The rank of a double counts the doubles below it, so the order of the ranks is the order of the values.
Only the sign of a zero makes no difference in value.

* `Binary64.scaled_strictMono` : a higher rank is a greater value
* `Binary64.value` : the value of a finite number
* `Binary64.value_lt_iff`, `Binary64.value_eq_iff` : the signed rank orders the values
* `Binary64.totalKey_lt_iff`, `Binary64.totalKey_eq_iff` : the total order is that of the values, with
  `-0` below `0`
-/

namespace AutomationNet.Binary64

theorem scaled_binade (exponent : Nat) {fraction : Nat} (h : fraction < binade) :
    scaled ((exponent + 1) * binade + fraction) = (binade + fraction) * 2 ^ exponent := by
  have hpos : 0 < binade := by decide
  have hge : ¬ (exponent + 1) * binade + fraction < binade := by
    rw [Nat.succ_mul]
    omega
  have hdiv : ((exponent + 1) * binade + fraction) / binade = exponent + 1 := by
    rw [Nat.add_comm, Nat.add_mul_div_right _ _ hpos, Nat.div_eq_of_lt h, Nat.zero_add]
  have hmod : ((exponent + 1) * binade + fraction) % binade = fraction := by
    rw [Nat.add_comm, Nat.add_mul_mod_self_right, Nat.mod_eq_of_lt h]
  rw [scaled, if_neg hge, hdiv, hmod, Nat.add_sub_cancel, Nat.shiftLeft_eq]

theorem scaled_of_lt {rank : Nat} (h : rank < binade) : scaled rank = rank := if_pos h

/-- A higher rank is a greater value. -/
theorem scaled_strictMono : StrictMono scaled := by
  refine strictMono_nat_of_lt_succ fun rank => ?_
  have hpos : 0 < binade := by decide
  by_cases hlow : rank < binade
  · -- The last rank below the first binade is followed by the first of that binade.
    rw [scaled_of_lt hlow]
    rcases Nat.lt_or_eq_of_le (Nat.succ_le_of_lt hlow) with hnext | hnext
    · rw [scaled_of_lt hnext]
      exact Nat.lt_succ_self rank
    · have hfirst := scaled_binade 0 hpos
      rw [Nat.zero_add, Nat.one_mul, Nat.add_zero, Nat.pow_zero, Nat.mul_one] at hfirst
      rw [show rank + 1 = binade from hnext, hfirst]
      exact hlow
  · obtain ⟨exponent, fraction, hfraction, rfl⟩ :
        ∃ exponent fraction, fraction < binade ∧ rank = (exponent + 1) * binade + fraction := by
      have hexponent : 1 ≤ rank / binade :=
        (Nat.le_div_iff_mul_le hpos).mpr (by rw [Nat.one_mul]; exact Nat.not_lt.mp hlow)
      refine ⟨rank / binade - 1, rank % binade, Nat.mod_lt _ hpos, ?_⟩
      rw [Nat.sub_add_cancel hexponent, Nat.mul_comm, Nat.div_add_mod]
    rw [scaled_binade exponent hfraction, Nat.add_assoc]
    have hunit : 0 < 2 ^ exponent := Nat.two_pow_pos exponent
    rcases Nat.lt_or_eq_of_le (Nat.succ_le_of_lt hfraction) with hnext | hnext
    · rw [scaled_binade exponent hnext]
      exact Nat.mul_lt_mul_of_pos_right (by omega) hunit
    · -- The next rank has a higher exponent and no fraction.
      have hcarry := scaled_binade (exponent + 1) hpos
      rw [Nat.add_zero, Nat.succ_mul (exponent + 1)] at hcarry
      rw [show fraction + 1 = binade from hnext, hcarry, Nat.add_zero, Nat.pow_succ',
        ← Nat.mul_assoc]
      exact Nat.mul_lt_mul_of_pos_right (by omega) hunit

/-- The value of a finite number, in units of `2 ^ -1074`. -/
def value (x : Binary64) : Int := if x.negative then -(scaled x.rank : Int) else scaled x.rank

variable {x y : Binary64}

/-- The signed rank orders the values. -/
theorem value_lt_iff : x.value < y.value ↔ x.key < y.key := by
  have hzero : scaled 0 = 0 := rfl
  have hx := scaled_strictMono.lt_iff_lt (a := x.rank) (b := y.rank)
  have hy := scaled_strictMono.lt_iff_lt (a := y.rank) (b := x.rank)
  have hx0 := scaled_strictMono.lt_iff_lt (a := 0) (b := x.rank)
  have hy0 := scaled_strictMono.lt_iff_lt (a := 0) (b := y.rank)
  rw [hzero] at hx0 hy0
  unfold value key
  cases x.negative <;> cases y.negative <;> simp only [if_true, Bool.false_eq_true, if_false] <;>
    omega

/-- Two numbers of one value that differ are the two zeros. -/
theorem value_eq_iff :
    x.value = y.value ↔ x = y ∨ x = zero ∧ y = zero.neg ∨ x = zero.neg ∧ y = zero := by
  have hlt := value_lt_iff (x := x) (y := y)
  have hgt := value_lt_iff (x := y) (y := x)
  have hkey : x.value = y.value ↔ x.key = y.key := by omega
  rw [hkey]
  obtain ⟨negative, rank⟩ := x
  obtain ⟨negative', rank'⟩ := y
  cases negative <;> cases negative' <;>
    simp only [key, zero, neg, mk.injEq, reduceCtorEq, Bool.not_false, Bool.false_eq_true, if_true,
      if_false, true_and, false_and, and_false, or_false, false_or] <;> omega

/-- The total order is that of the values, with `-0` below `0`. -/
theorem totalKey_lt_iff :
    x.totalKey < y.totalKey ↔ x.value < y.value ∨ x = zero.neg ∧ y = zero := by
  rw [value_lt_iff]
  obtain ⟨negative, rank⟩ := x
  obtain ⟨negative', rank'⟩ := y
  cases negative <;> cases negative' <;> simp [totalKey, key, zero, neg] <;> omega

theorem totalKey_eq_iff : x.totalKey = y.totalKey ↔ x = y := by
  obtain ⟨negative, rank⟩ := x
  obtain ⟨negative', rank'⟩ := y
  cases negative <;> cases negative' <;> simp [totalKey] <;> omega

end AutomationNet.Binary64
