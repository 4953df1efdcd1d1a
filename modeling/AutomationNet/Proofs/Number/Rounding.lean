import AutomationNet.Proofs.Number.Value
import Mathlib.Algebra.Order.Field.Basic
import Mathlib.Algebra.Order.Ring.Rat
import Mathlib.Tactic.FieldSimp
import Mathlib.Tactic.Linarith
import Mathlib.Tactic.Positivity
import Mathlib.Tactic.Ring

/-!
# Correct rounding

Each operation on doubles rounds its exact result. The doubles of a binade are the multiples of its
spacing, so a result is off by at most half of that, and no double is nearer.

* `abs_roundEven_sub_le` : a ratio rounded to a whole number
* `Binary64.magnitude` : the absolute value of a finite number
* `Binary64.magnitude_eq_of_near` : doubles nearer to each other than their spacing are level
* `Binary64.Rounds` : that a double is a rounded ratio, with `rounds_ofRatio`, `rounds_addAbs`,
  `rounds_mul`, `rounds_div`
* `Binary64.Rounds.spec` : **a rounded ratio is the nearest multiple of the spacing around it**
* `Binary64.Rounds.nearest` : **no double is nearer**
* `Binary64.Rounds.abs_sub_le`, `Binary64.Rounds.abs_sub_le_mul` : the error, from a bound of the
  ratio and from the ratio itself
-/

namespace AutomationNet

theorem roundEven_bounds (num : Nat) {den : Nat} (hden : 0 < den) :
    2 * (roundEven num den * den) ≤ 2 * num + den ∧
      2 * num ≤ 2 * (roundEven num den * den) + den := by
  have hdiv : num / den * den + num % den = num := Nat.div_add_mod' num den
  have hmod := Nat.mod_lt num hden
  unfold roundEven
  dsimp only
  split
  · rw [Nat.succ_mul (num / den)]
    omega
  · omega

theorem abs_sub_le_half {num den n : Nat} (hden : 0 < den) (hle : 2 * (n * den) ≤ 2 * num + den)
    (hge : 2 * num ≤ 2 * (n * den) + den) : |(n : ℚ) - num / den| ≤ 1 / 2 := by
  have hpos : (0 : ℚ) < den := by exact_mod_cast hden
  have hle : 2 * ((n : ℚ) * den) ≤ 2 * num + den := by exact_mod_cast hle
  have hge : 2 * (num : ℚ) ≤ 2 * (n * den) + den := by exact_mod_cast hge
  have hnum : (num : ℚ) / den * den = num := div_mul_cancel₀ _ hpos.ne'
  rw [abs_le]
  constructor
  · refine le_of_mul_le_mul_right ?_ hpos
    linarith
  · refine le_of_mul_le_mul_right ?_ hpos
    linarith

/-- A rounded ratio is off by at most a half. -/
theorem abs_roundEven_sub_le (num : Nat) {den : Nat} (hden : 0 < den) :
    |(roundEven num den : ℚ) - num / den| ≤ 1 / 2 :=
  abs_sub_le_half hden (roundEven_bounds num hden).1 (roundEven_bounds num hden).2

theorem abs_halfUp_sub_le (num : Nat) {den : Nat} (hden : 0 < den) :
    |(((2 * num + den) / (den * 2) : Nat) : ℚ) - num / den| ≤ 1 / 2 := by
  have hdiv := Nat.div_add_mod' (2 * num + den) (den * 2)
  have hmod := Nat.mod_lt (2 * num + den) (show 0 < den * 2 by omega)
  generalize (2 * num + den) / (den * 2) = n at hdiv
  rw [← Nat.mul_assoc] at hdiv
  have hle : 2 * (n * den) ≤ 2 * num + den := by omega
  have hge : 2 * num ≤ 2 * (n * den) + den := by omega
  exact abs_sub_le_half hden hle hge

theorem abs_sub_le_of_half {n : Nat} {q : ℚ} (hn : |(n : ℚ) - q| ≤ 1 / 2) (m : Nat) :
    |(n : ℚ) - q| ≤ |(m : ℚ) - q| := by
  rcases Nat.lt_trichotomy m n with hlt | rfl | hlt
  · have hlt : (m : ℚ) + 1 ≤ n := by exact_mod_cast hlt
    have := neg_le_abs ((m : ℚ) - q)
    have := neg_le_abs ((n : ℚ) - q)
    have := le_abs_self ((n : ℚ) - q)
    linarith
  · exact le_refl _
  · have hlt : (n : ℚ) + 1 ≤ m := by exact_mod_cast hlt
    have := le_abs_self ((m : ℚ) - q)
    have := neg_le_abs ((n : ℚ) - q)
    linarith

namespace Binary64

def magnitude (x : Binary64) : ℚ := scaled x.rank / 2 ^ unitExponent

theorem magnitude_nonneg (x : Binary64) : 0 ≤ x.magnitude := by
  unfold magnitude
  positivity

/-- How far apart the doubles of a binade lie. -/
def spacing (k : Nat) : ℚ := 2 ^ k / 2 ^ unitExponent

theorem spacing_pos (k : Nat) : 0 < spacing k := by
  unfold spacing
  positivity

theorem spacing_mul (j k : Nat) : 2 ^ j * spacing k = spacing (j + k) := by
  rw [spacing, spacing, pow_add, mul_div_assoc]

theorem spacing_lt_iff {j k : Nat} : spacing j < spacing k ↔ j < k := by
  rw [spacing, spacing, div_lt_div_iff_of_pos_right (by positivity)]
  exact pow_lt_pow_iff_right₀ (by norm_num)

theorem spacing_le_iff {j k : Nat} : spacing j ≤ spacing k ↔ j ≤ k := by
  rw [← not_lt, spacing_lt_iff, not_lt]

theorem spacing_add_unitExponent (e : Nat) : spacing (e + unitExponent) = 2 ^ e := by
  rw [spacing, pow_add, mul_div_assoc, div_self (by positivity), mul_one]

/-! ## The doubles of a binade -/

theorem scaled_multiple {k n : Nat} (hlow : k = 0 ∨ binade ≤ n) (hhigh : n ≤ 2 * binade) :
    scaled (k * binade + n) = n * 2 ^ k := by
  by_cases hsmall : n < binade
  · obtain rfl : k = 0 := hlow.resolve_right (Nat.not_le.mpr hsmall)
    rw [Nat.zero_mul, Nat.zero_add, scaled_of_lt hsmall, Nat.pow_zero, Nat.mul_one]
  · obtain ⟨fraction, rfl⟩ := Nat.exists_eq_add_of_le (Nat.not_lt.mp hsmall)
    rcases Nat.lt_or_eq_of_le hhigh with hlt | heq
    · rw [← Nat.add_assoc, ← Nat.succ_mul, scaled_binade k (by omega)]
    · -- the multiple after the last one of the binade is the first one of the next
      obtain rfl : fraction = binade := by omega
      have hnext := scaled_binade (k + 1) (show 0 < binade by decide)
      rw [Nat.add_zero, Nat.add_zero] at hnext
      rw [show k * binade + (binade + binade) = (k + 1 + 1) * binade by ring, hnext]
      ring

/-- Each double is a multiple of the spacing of its binade. -/
theorem exists_magnitude_eq (x : Binary64) :
    ∃ k n : Nat, n < 2 ^ 53 ∧ x.magnitude = n * spacing k := by
  have hpos : 0 < binade := by decide
  by_cases hlow : x.rank < binade
  · refine ⟨0, x.rank, Nat.lt_trans hlow (by decide), ?_⟩
    rw [magnitude, scaled_of_lt hlow, spacing, pow_zero, mul_one_div]
  · have hexponent : 1 ≤ x.rank / binade :=
      (Nat.le_div_iff_mul_le hpos).mpr (by rw [Nat.one_mul]; exact Nat.not_lt.mp hlow)
    have hfraction : x.rank % binade < binade := Nat.mod_lt _ hpos
    refine ⟨x.rank / binade - 1, binade + x.rank % binade, ?_, ?_⟩
    · rw [show 2 ^ 53 = binade + binade by decide]
      omega
    · rw [magnitude, scaled, if_neg hlow, Nat.shiftLeft_eq, Nat.cast_mul, Nat.cast_pow,
        Nat.cast_ofNat, spacing, mul_div_assoc]

/-- From a power of two on, the doubles are multiples of the spacing there. -/
theorem exists_magnitude_eq_mul {x : Binary64} {e : Nat} (h : 2 ^ e ≤ x.magnitude) :
    ∃ n : Nat, x.magnitude = n * (2 ^ e / 2 ^ 52) := by
  obtain ⟨k, n, hn, hx⟩ := exists_magnitude_eq x
  have hk : e + unitExponent < 53 + k := by
    rw [← spacing_lt_iff, spacing_add_unitExponent, ← spacing_mul]
    have hn : (n : ℚ) < 2 ^ 53 := by exact_mod_cast hn
    exact h.trans_lt (hx ▸ mul_lt_mul_of_pos_right hn (spacing_pos k))
  obtain ⟨i, hi⟩ := Nat.exists_eq_add_of_le (show e + unitExponent ≤ 52 + k by omega)
  refine ⟨n * 2 ^ i, ?_⟩
  have hspacing : 2 ^ 52 * spacing k = 2 ^ i * 2 ^ e := by
    rw [spacing_mul, hi, Nat.add_comm, ← spacing_mul, spacing_add_unitExponent]
  rw [hx, Nat.cast_mul, Nat.cast_pow, Nat.cast_ofNat, mul_assoc, ← mul_div_assoc, ← hspacing,
    mul_div_cancel_left₀ _ (by positivity)]

/-- There, doubles that are nearer to each other than the spacing are level. -/
theorem magnitude_eq_of_near {x y : Binary64} {e : Nat} (hx : 2 ^ e ≤ x.magnitude)
    (hy : 2 ^ e ≤ y.magnitude) (h : |x.magnitude - y.magnitude| < 2 ^ e / 2 ^ 52) :
    x.magnitude = y.magnitude := by
  obtain ⟨n, hn⟩ := exists_magnitude_eq_mul hx
  obtain ⟨m, hm⟩ := exists_magnitude_eq_mul hy
  have hpos : (0 : ℚ) < 2 ^ e / 2 ^ 52 := by positivity
  rw [hn, hm, ← sub_mul, abs_mul, abs_of_pos hpos] at h
  have hlt := lt_of_mul_lt_mul_right (h.trans_eq (one_mul _).symm) hpos.le
  have hlt : |(n : Int) - m| < 1 := by exact_mod_cast hlt
  have heq : (n : Int) = m := by
    rw [abs_lt] at hlt
    omega
  rw [hn, hm, Int.ofNat.inj heq]

/-! ## Rounded ratios -/

/-- The double is what the ratio is rounded to. -/
def Rounds (x : Binary64) (q : ℚ) : Prop :=
  ∃ num den : Nat, 0 < den ∧ x.rank = nearestUnits num den ∧ q = num / den / 2 ^ unitExponent

theorem rounds_ofRatio (num : Nat) {den : Nat} (hden : 0 < den) :
    (ofRatio num den).Rounds (num / den) := by
  refine ⟨num <<< unitExponent, den, hden, rfl, ?_⟩
  rw [Nat.shiftLeft_eq]
  push_cast
  field_simp

theorem rounds_ofNat (n : Nat) : (ofNat n).Rounds n := by
  have h := rounds_ofRatio n Nat.one_pos
  rwa [Nat.cast_one, div_one] at h

theorem rounds_addAbs (x y : Binary64) : (addAbs x y).Rounds (x.magnitude + y.magnitude) := by
  refine ⟨scaled x.rank + scaled y.rank, 1, Nat.one_pos, rfl, ?_⟩
  rw [magnitude, magnitude, Nat.cast_one, div_one, Nat.cast_add, add_div]

theorem rounds_mul (x y : Binary64) : (mul x y).Rounds (x.magnitude * y.magnitude) := by
  refine ⟨scaled x.rank * scaled y.rank, 1 <<< unitExponent, ?_, rfl, ?_⟩
  · rw [Nat.one_shiftLeft]
    exact Nat.two_pow_pos _
  · rw [magnitude, magnitude, Nat.one_shiftLeft, div_mul_div_comm, div_div]
    push_cast
    rfl

theorem rounds_div (x : Binary64) {y : Binary64} (hy : y.magnitude ≠ 0) :
    (div x y).Rounds (x.magnitude / y.magnitude) := by
  have hpos : 0 < scaled y.rank := by
    refine Nat.pos_of_ne_zero fun hzero => hy ?_
    rw [magnitude, hzero, Nat.cast_zero, zero_div]
  refine ⟨scaled x.rank <<< unitExponent, scaled y.rank, hpos, rfl, ?_⟩
  have hpos : (0 : ℚ) < scaled y.rank := by exact_mod_cast hpos
  rw [magnitude, magnitude, Nat.shiftLeft_eq]
  push_cast
  field_simp

/-- The ratio lies in a binade, or below the first one. -/
structure InBinade (k : Nat) (q : ℚ) : Prop where
  low : k = 0 ∨ spacing (52 + k) ≤ q
  high : q < spacing (53 + k)

variable {x : Binary64} {q : ℚ}

theorem InBinade.le {k i : Nat} (h : InBinade k q) (hq : q < spacing (53 + i)) : k ≤ i := by
  rcases h.low with rfl | hlow
  · exact Nat.zero_le i
  · have hlt := spacing_lt_iff.mp (hlow.trans_lt hq)
    omega

theorem inBinade_log2 (num : Nat) {den : Nat} (hden : 0 < den) :
    InBinade ((num / den).log2 - 52) (num / den / 2 ^ unitExponent) := by
  have hpos : (0 : ℚ) < den := by exact_mod_cast hden
  constructor
  · by_cases hlog : (num / den).log2 ≤ 52
    · exact .inl (Nat.sub_eq_zero_of_le hlog)
    · right
      have hne : num / den ≠ 0 := by
        intro hzero
        rw [hzero] at hlog
        exact hlog (by decide)
      have hle : 2 ^ (num / den).log2 * den ≤ num :=
        (Nat.le_div_iff_mul_le hden).mp (Nat.log2_self_le hne)
      have hle : (2 : ℚ) ^ (num / den).log2 * den ≤ num := by exact_mod_cast hle
      rw [Nat.add_sub_cancel' (Nat.le_of_not_le hlog), spacing,
        div_le_div_iff_of_pos_right (by positivity), le_div_iff₀ hpos]
      exact hle
  · have hlt : num < 2 ^ ((num / den).log2 + 1) * den :=
      (Nat.div_lt_iff_lt_mul hden).mp Nat.lt_log2_self
    have hlt : num < 2 ^ (53 + ((num / den).log2 - 52)) * den :=
      hlt.trans_le (Nat.mul_le_mul_right _ (Nat.pow_le_pow_right (by decide) (by omega)))
    have hlt : (num : ℚ) < 2 ^ (53 + ((num / den).log2 - 52)) * den := by exact_mod_cast hlt
    rwa [spacing, div_lt_div_iff_of_pos_right (by positivity), div_lt_iff₀ hpos]

/-- The multiple nearest to a ratio is one of its binade or the first of the next. -/
theorem InBinade.multiple {k n : Nat} (h : InBinade k q) (hhalf : |n - q / spacing k| ≤ 1 / 2) :
    (k = 0 ∨ binade ≤ n) ∧ n ≤ 2 * binade := by
  have hpos := spacing_pos k
  obtain ⟨hge, hle⟩ := abs_le.mp hhalf
  constructor
  · refine h.low.imp_right fun hlow => ?_
    rw [← spacing_mul, ← le_div_iff₀ hpos] at hlow
    have hlt : (2 : ℚ) ^ 52 < n + 1 := by linarith
    exact Nat.le_of_lt_succ (by exact_mod_cast hlt)
  · have hhigh := h.high
    rw [← spacing_mul, ← div_lt_iff₀ hpos] at hhigh
    have hlt : (n : ℚ) < 2 ^ 53 + 1 := by linarith
    exact Nat.le_of_lt_succ (by exact_mod_cast hlt)

theorem abs_mul_spacing_sub (n : Nat) (k : Nat) (q : ℚ) :
    |n * spacing k - q| = |n - q / spacing k| * spacing k := by
  have hpos := spacing_pos k
  rw [← abs_of_pos hpos, ← abs_mul, abs_of_pos hpos, sub_mul, div_mul_cancel₀ _ hpos.ne']

/-- **A rounded ratio is the nearest multiple of the spacing around it.** -/
theorem Rounds.spec (h : x.Rounds q) (hq : q < 2 ^ 1023) :
    ∃ k n : Nat, InBinade k q ∧ x.magnitude = n * spacing k ∧ |n - q / spacing k| ≤ 1 / 2 := by
  obtain ⟨num, den, hden, hrank, rfl⟩ := h
  have hin := inBinade_log2 num hden
  have hrank : x.rank = min (((num / den).log2 - 52) * binade +
      roundEven num (den <<< ((num / den).log2 - 52))) infinityRank := hrank
  generalize (num / den).log2 - 52 = k at hin hrank
  have hden' : 0 < den <<< k := by
    rw [Nat.shiftLeft_eq]
    exact Nat.mul_pos hden (Nat.two_pow_pos k)
  have hhalf := abs_roundEven_sub_le num hden'
  generalize roundEven num (den <<< k) = n at hrank hhalf
  have hratio : (num : ℚ) / (den <<< k : Nat) = num / den / 2 ^ unitExponent / spacing k := by
    rw [Nat.shiftLeft_eq, spacing]
    push_cast
    field_simp
  rw [hratio] at hhalf
  obtain ⟨hlow, hhigh⟩ := hin.multiple hhalf
  have hfinite : k * binade + n < infinityRank := by
    have hk : k ≤ 2044 := by
      refine hin.le (hq.trans_eq ?_)
      rw [← spacing_add_unitExponent]
      rfl
    have hle := Nat.mul_le_mul_right binade hk
    have hbinade : 0 < binade := by decide
    unfold infinityRank
    omega
  refine ⟨k, n, hin, ?_, hhalf⟩
  rw [magnitude, hrank, min_eq_left hfinite.le, scaled_multiple hlow hhigh, spacing,
    Nat.cast_mul, Nat.cast_pow, Nat.cast_ofNat, mul_div_assoc]

/-- **No double is nearer** to a ratio than what it is rounded to. -/
theorem Rounds.nearest (h : x.Rounds q) (hq : q < 2 ^ 1023) (y : Binary64) :
    |x.magnitude - q| ≤ |y.magnitude - q| := by
  obtain ⟨k, n, hin, hx, hhalf⟩ := h.spec hq
  have hmultiple (m : Nat) : |x.magnitude - q| ≤ |m * spacing k - q| := by
    rw [hx, abs_mul_spacing_sub, abs_mul_spacing_sub]
    exact mul_le_mul_of_nonneg_right (abs_sub_le_of_half hhalf m) (spacing_pos k).le
  obtain ⟨i, m, hm, hy⟩ := exists_magnitude_eq y
  rcases Nat.lt_or_ge i k with hik | hki
  · -- a double of a lower binade lies below the first one in that of the ratio
    have hlow : spacing (52 + k) ≤ q := hin.low.resolve_left (by omega)
    have hy : y.magnitude ≤ spacing (52 + k) :=
      calc y.magnitude ≤ 2 ^ 53 * spacing i := by
            have hm : (m : ℚ) ≤ 2 ^ 53 := by exact_mod_cast hm.le
            exact hy ▸ mul_le_mul_of_nonneg_right hm (spacing_pos i).le
        _ = spacing (53 + i) := spacing_mul 53 i
        _ ≤ spacing (52 + k) := spacing_le_iff.mpr (by omega)
    have hfirst := hmultiple (2 ^ 52)
    rw [Nat.cast_pow, Nat.cast_ofNat, spacing_mul] at hfirst
    refine hfirst.trans ?_
    rw [abs_of_nonpos (sub_nonpos.mpr hlow), abs_of_nonpos (sub_nonpos.mpr (hy.trans hlow))]
    linarith
  · obtain ⟨j, rfl⟩ := Nat.exists_eq_add_of_le' hki
    have h := hmultiple (m * 2 ^ j)
    rwa [Nat.cast_mul, Nat.cast_pow, Nat.cast_ofNat, mul_assoc, spacing_mul, ← hy] at h

theorem Rounds.eq_magnitude {y : Binary64} (h : x.Rounds y.magnitude)
    (hy : y.magnitude < 2 ^ 1023) : x.magnitude = y.magnitude := by
  have hle := h.nearest hy y
  rw [sub_self, abs_zero] at hle
  exact sub_eq_zero.mp (abs_nonpos_iff.mp hle)

/-- A ratio is not rounded past a double below it. -/
theorem Rounds.le_magnitude {y : Binary64} (h : x.Rounds q) (hq : q < 2 ^ 1023)
    (hy : y.magnitude ≤ q) : y.magnitude ≤ x.magnitude := by
  have hle := h.nearest hq y
  rw [abs_of_nonpos (sub_nonpos.mpr hy)] at hle
  have hge := neg_le_of_abs_le hle
  linarith

theorem InBinade.spacing_le {k : Nat} (hin : InBinade k q) (hlow : 1 ≤ q) :
    spacing k ≤ q / 2 ^ 52 := by
  rcases hin.low with rfl | h
  · have hlt : spacing 53 < spacing (0 + unitExponent) := spacing_lt_iff.mpr (by decide)
    rw [spacing_add_unitExponent] at hlt
    exact absurd (hin.high.trans hlt) (not_lt.mpr hlow)
  · rwa [le_div_iff₀ (by positivity), mul_comm, spacing_mul]

theorem Rounds.abs_sub_le (h : x.Rounds q) {e : Nat} (he : e ≤ 1023) (hq : q < 2 ^ e) :
    |x.magnitude - q| ≤ 2 ^ e / 2 ^ 54 := by
  obtain ⟨k, n, hin, hx, hhalf⟩ := h.spec (hq.trans_le (pow_le_pow_right₀ (by norm_num) he))
  have hk : spacing (53 + k) ≤ 2 ^ e := by
    rw [← spacing_add_unitExponent, spacing_le_iff]
    have hk : k ≤ e + 1021 := by
      refine hin.le (hq.trans_eq ?_)
      rw [← spacing_add_unitExponent, show 53 + (e + 1021) = e + unitExponent by
        rw [show unitExponent = 1074 from rfl]
        omega]
    rw [show unitExponent = 1074 from rfl]
    omega
  calc |x.magnitude - q| = |n - q / spacing k| * spacing k := by rw [hx, abs_mul_spacing_sub]
    _ ≤ 1 / 2 * spacing k := mul_le_mul_of_nonneg_right hhalf (spacing_pos k).le
    _ = spacing (53 + k) / 2 ^ 54 := by rw [← spacing_mul]; ring
    _ ≤ 2 ^ e / 2 ^ 54 := div_le_div_of_nonneg_right hk (by positivity)

theorem Rounds.abs_sub_le_mul (h : x.Rounds q) (hlow : 1 ≤ q) (hq : q < 2 ^ 1023) :
    |x.magnitude - q| ≤ q / 2 ^ 53 := by
  obtain ⟨k, n, hin, hx, hhalf⟩ := h.spec hq
  calc |x.magnitude - q| = |n - q / spacing k| * spacing k := by rw [hx, abs_mul_spacing_sub]
    _ ≤ 1 / 2 * spacing k := mul_le_mul_of_nonneg_right hhalf (spacing_pos k).le
    _ ≤ 1 / 2 * (q / 2 ^ 52) := mul_le_mul_of_nonneg_left (hin.spacing_le hlow) (by norm_num)
    _ = q / 2 ^ 53 := by ring

/-! ## Whole numbers -/

theorem magnitude_ofNat {n : Nat} (hn : n < 2 ^ 53) : (ofNat n).magnitude = n := by
  have hn' : (n : ℚ) < 2 ^ 53 := by exact_mod_cast hn
  have hq : (n : ℚ) < 2 ^ 1023 := hn'.trans_le (pow_le_pow_right₀ (by norm_num) (by decide))
  obtain ⟨k, m, hin, hm, hhalf⟩ := (rounds_ofNat n).spec hq
  have hk : k ≤ unitExponent := by
    refine hin.le ?_
    rw [spacing_add_unitExponent]
    exact hn'
  obtain ⟨j, hj⟩ := Nat.exists_eq_add_of_le' hk
  have hmultiple : (n : ℚ) = (n * 2 ^ j : Nat) * spacing k := by
    rw [Nat.cast_mul, Nat.cast_pow, Nat.cast_ofNat, mul_assoc, spacing_mul, ← hj, spacing,
      div_self (by positivity), mul_one]
  rw [hmultiple, mul_div_cancel_right₀ _ (spacing_pos k).ne'] at hhalf
  have heq := abs_sub_le_of_half hhalf (n * 2 ^ j)
  rw [sub_self, abs_zero, abs_nonpos_iff, sub_eq_zero] at heq
  rw [hm, heq, ← hmultiple]

theorem abs_roundAbs_sub_le (x : Binary64) : |(x.roundAbs : ℚ) - x.magnitude| ≤ 1 / 2 := by
  have h := abs_halfUp_sub_le (scaled x.rank) (Nat.two_pow_pos unitExponent)
  rw [Nat.cast_pow, Nat.cast_ofNat, ← Nat.pow_succ, ← Nat.shiftRight_eq_div_pow] at h
  rwa [roundAbs, magnitude, Nat.one_shiftLeft]

end Binary64

end AutomationNet
