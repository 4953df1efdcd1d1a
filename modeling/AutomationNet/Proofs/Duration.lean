import AutomationNet.Duration
import AutomationNet.Proofs.Number.Rounding

/-!
# Durations in milliseconds

The milliseconds of a duration go through doubles: the seconds are summed from their whole part and
their fraction, multiplied by a thousand and rounded. Below `2 ^ 23` seconds the doubles are dense
enough for every duration. From there on a duration that was read gives back the seconds it was read
from, and the product decides.

* `Duration.seconds`, `Duration.milliseconds` : the exact values
* `Duration.toSeconds_sub_le` : a short duration in seconds
* `Duration.toSeconds_ofSeconds?` : **a long duration gives back the seconds it was read from**
* `Duration.nearestLimit`, `Duration.roundedMillis_sub_le` : **up to the limit the milliseconds are
  the nearest**
* `Duration.roundedMillis_sub_le_mul` : the error of any duration that was read
-/

namespace AutomationNet.Duration

open Binary64

def seconds (d : Duration) : ℚ := d / nanosPerSecond

def milliseconds (d : Duration) : ℚ := d / nanosPerMilli

@[simp] theorem cast_nanosPerSecond : (nanosPerSecond : ℚ) = 1000000000 := by
  norm_num [nanosPerSecond]

@[simp] theorem cast_nanosPerMilli : (nanosPerMilli : ℚ) = 1000000 := by
  norm_num [nanosPerMilli]

theorem milliseconds_eq (d : Duration) : d.milliseconds = d.seconds * 1000 := by
  rw [milliseconds, seconds, cast_nanosPerMilli, cast_nanosPerSecond]
  ring

theorem abs_sub_milliseconds_le_half {d : Duration} {n : Nat}
    (h : |(n : ℚ) - d.milliseconds| < 1 / 2 + 1 / 1000000) :
    |(n : ℚ) - d.milliseconds| ≤ 1 / 2 := by
  rw [milliseconds, cast_nanosPerMilli] at h ⊢
  obtain ⟨hlow, hhigh⟩ := abs_lt.mp h
  have hlow : (d : ℚ) < n * 1000000 + 500001 := by linarith
  have hhigh : (n : ℚ) * 1000000 < d + 500001 := by linarith
  have hlow : d < n * 1000000 + 500001 := by exact_mod_cast hlow
  have hhigh : n * 1000000 < d + 500001 := by exact_mod_cast hhigh
  have hlow : (d : ℚ) ≤ n * 1000000 + 500000 := by exact_mod_cast Nat.le_of_lt_succ hlow
  have hhigh : (n : ℚ) * 1000000 ≤ d + 500000 := by exact_mod_cast Nat.le_of_lt_succ hhigh
  rw [abs_le]
  constructor <;> linarith

variable {d : Duration} {x : Binary64}

/-! ## In seconds -/

theorem seconds_eq (d : Duration) :
    d.seconds = (d / nanosPerSecond : Nat) + (d % nanosPerSecond : Nat) / nanosPerSecond := by
  have hdiv : (d : ℚ) =
      (d / nanosPerSecond : Nat) * nanosPerSecond + (d % nanosPerSecond : Nat) := by
    exact_mod_cast (Nat.div_add_mod' d nanosPerSecond).symm
  have hne : (nanosPerSecond : ℚ) ≠ 0 := by norm_num
  rw [seconds]
  nth_rewrite 1 [hdiv]
  rw [add_div, mul_div_cancel_right₀ _ hne]

theorem exists_toSeconds_rounds
    (hwhole : (ofNat (d / nanosPerSecond)).magnitude = (d / nanosPerSecond : Nat)) :
    ∃ q, d.toSeconds.Rounds q ∧ ((d / nanosPerSecond : Nat) : ℚ) ≤ q ∧
      |q - d.seconds| ≤ 1 / 2 ^ 54 := by
  have hrest : d % nanosPerSecond < nanosPerSecond := Nat.mod_lt _ (by decide)
  have hunit : (ofNat nanosPerSecond).magnitude = nanosPerSecond := magnitude_ofNat (by decide)
  have hpart : (ofNat (d % nanosPerSecond)).magnitude = (d % nanosPerSecond : Nat) :=
    magnitude_ofNat (hrest.trans (by decide))
  have hpos : (0 : ℚ) < nanosPerSecond := by norm_num
  have hfraction := rounds_div (ofNat (d % nanosPerSecond)) (hunit ▸ hpos.ne')
  rw [hunit, hpart] at hfraction
  have hlt : ((d % nanosPerSecond : Nat) : ℚ) / nanosPerSecond < 2 ^ 0 := by
    rw [pow_zero, div_lt_one hpos]
    exact_mod_cast hrest
  have herror := hfraction.abs_sub_le (Nat.zero_le _) hlt
  have hsum := rounds_addAbs (ofNat (d / nanosPerSecond))
    ((ofNat (d % nanosPerSecond)).div (ofNat nanosPerSecond))
  rw [hwhole] at hsum
  refine ⟨_, hsum, le_add_of_nonneg_right (magnitude_nonneg _), ?_⟩
  rwa [seconds_eq, add_sub_add_left_eq_sub]

theorem toSeconds_sub_le (hd : d < 2 ^ 23 * nanosPerSecond) :
    |d.toSeconds.magnitude - d.seconds| ≤ 1 / 2 ^ 31 + 1 / 2 ^ 54 := by
  have hwhole : d / nanosPerSecond < 2 ^ 23 :=
    (Nat.div_lt_iff_lt_mul (by decide)).mpr hd
  obtain ⟨q, hq, -, herror⟩ :=
    exists_toSeconds_rounds (magnitude_ofNat (hwhole.trans (by decide)))
  have hseconds : d.seconds ≤ 2 ^ 23 - 1 / 1000000000 := by
    have hle : (d : ℚ) ≤ 2 ^ 23 * 1000000000 - 1 := by
      have hle : d + 1 ≤ 2 ^ 23 * 1000000000 := hd
      have hle : (d : ℚ) + 1 ≤ 2 ^ 23 * 1000000000 := by exact_mod_cast hle
      linarith
    rw [seconds, cast_nanosPerSecond]
    linarith
  obtain ⟨hlow, hhigh⟩ := abs_le.mp herror
  have hlt : q < 2 ^ 23 := by linarith
  obtain ⟨hlow', hhigh'⟩ := abs_le.mp (hq.abs_sub_le (by decide) hlt)
  rw [abs_le]
  constructor <;> linarith

theorem ofSeconds?_eq_some (h : ofSeconds? x = some d) :
    |d.seconds - x.magnitude| ≤ 1 / 2000000000 ∧ x.magnitude < 2 ^ 64 := by
  unfold ofSeconds? at h
  dsimp only at h
  split at h
  · rename_i hlt
    obtain rfl := Option.some.inj h
    have hpos : (0 : ℚ) < 2 ^ unitExponent := by positivity
    constructor
    · have herror := abs_roundEven_sub_le (scaled x.rank * nanosPerSecond)
        (Nat.two_pow_pos unitExponent)
      rw [Nat.one_shiftLeft, seconds, magnitude]
      rw [Nat.cast_mul, Nat.cast_pow, Nat.cast_ofNat, cast_nanosPerSecond,
        mul_div_right_comm] at herror
      rw [cast_nanosPerSecond]
      obtain ⟨hlow, hhigh⟩ := abs_le.mp herror
      rw [abs_le]
      constructor <;> linarith
    · rw [Nat.shiftRight_eq_div_pow, Nat.div_lt_iff_lt_mul (Nat.two_pow_pos _),
        Nat.one_shiftLeft] at hlt
      have hlt : (_ : ℚ) < _ := Nat.cast_lt.mpr hlt
      rw [Nat.cast_mul, Nat.cast_pow, Nat.cast_pow, Nat.cast_ofNat] at hlt
      rwa [magnitude, div_lt_iff₀ hpos]
  · cases h

/-- The whole seconds of a long duration are a double. -/
theorem magnitude_wholeSeconds (h : ofSeconds? x = some d) :
    (ofNat (d / nanosPerSecond)).magnitude = (d / nanosPerSecond : Nat) := by
  by_cases hsmall : d / nanosPerSecond < 2 ^ 53
  · exact magnitude_ofNat hsmall
  · -- the seconds were a whole number
    obtain ⟨herror, hlt⟩ := ofSeconds?_eq_some h
    obtain ⟨hlow, hhigh⟩ := abs_le.mp herror
    have hlarge : (2 : ℚ) ^ 53 ≤ d.seconds := by
      have hle := (Nat.le_div_iff_mul_le (by decide)).mp (Nat.not_lt.mp hsmall)
      rw [seconds, le_div_iff₀ (by norm_num)]
      exact_mod_cast hle
    obtain ⟨n, hn⟩ := exists_magnitude_eq_mul (show 2 ^ 52 ≤ x.magnitude by linarith)
    rw [div_self (by positivity), mul_one] at hn
    have hd : d = n * nanosPerSecond := by
      rw [hn, seconds, cast_nanosPerSecond] at hlow hhigh
      have hle : (d : ℚ) < n * 1000000000 + 1 := by linarith
      have hge : (n : ℚ) * 1000000000 < d + 1 := by linarith
      exact Nat.le_antisymm (Nat.le_of_lt_succ (by exact_mod_cast hle))
        (Nat.le_of_lt_succ (by exact_mod_cast hge))
    rw [hd, Nat.mul_div_cancel _ (by decide), ← hn]
    refine Rounds.eq_magnitude ?_ ?_
    · rw [hn]
      exact rounds_ofNat n
    · exact hlt.trans_le (pow_le_pow_right₀ (by norm_num) (by decide))

/-- **A long duration gives back the seconds it was read from.** -/
theorem toSeconds_ofSeconds? (h : ofSeconds? x = some d) (hx : 2 ^ 23 ≤ x.magnitude) :
    d.toSeconds.magnitude = x.magnitude := by
  obtain ⟨herror, hlt⟩ := ofSeconds?_eq_some h
  obtain ⟨q, hq, hwhole, hsum⟩ := exists_toSeconds_rounds (magnitude_wholeSeconds h)
  obtain ⟨hlow, hhigh⟩ := abs_le.mp herror
  obtain ⟨hlow', hhigh'⟩ := abs_le.mp hsum
  have hfinite : q < 2 ^ 1023 := by
    have hle : (2 : ℚ) ^ 65 ≤ 2 ^ 1023 := pow_le_pow_right₀ (by norm_num) (by decide)
    refine lt_of_lt_of_le ?_ hle
    linarith
  have hlong : (2 : ℚ) ^ 23 ≤ q := by
    rw [seconds, cast_nanosPerSecond] at hlow
    have hd : (2 : ℚ) ^ 23 * 1000000000 < d + 1 := by linarith
    have hd : 2 ^ 23 * 1000000000 < d + 1 := by exact_mod_cast hd
    have hle : 2 ^ 23 ≤ d / nanosPerSecond :=
      (Nat.le_div_iff_mul_le (by decide)).mpr (Nat.le_of_lt_succ hd)
    refine le_trans ?_ hwhole
    exact_mod_cast hle
  have hdense : 2 ^ 23 ≤ d.toSeconds.magnitude := by
    have hle := hq.le_magnitude hfinite (y := ofNat (2 ^ 23))
    rw [magnitude_ofNat (by decide)] at hle
    exact_mod_cast hle (by exact_mod_cast hlong)
  have hsource : |x.magnitude - q| ≤ 1 / 2 ^ 54 + 1 / 2000000000 := by
    rw [abs_le]
    constructor <;> linarith
  obtain ⟨hlow, hhigh⟩ := abs_le.mp hsource
  obtain ⟨hlow', hhigh'⟩ := abs_le.mp ((hq.nearest hfinite x).trans hsource)
  refine magnitude_eq_of_near hdense hx (abs_lt.mpr ?_)
  constructor <;> linarith

/-! ## In milliseconds -/

/-- The milliseconds before they are cut to 64 bits. -/
def roundedMillis (d : Duration) : Nat := (d.toSeconds.mul (.ofNat 1000)).roundAbs

theorem wholeMilliseconds_eq (d : Duration) :
    d.wholeMilliseconds = min d.roundedMillis ((1 <<< 64) - 1) := rfl

theorem exists_millis_rounds (d : Duration) :
    ∃ p : Binary64, p.Rounds (d.toSeconds.magnitude * 1000) ∧
      |d.roundedMillis - p.magnitude| ≤ 1 / 2 := by
  have hthousand : (ofNat 1000).magnitude = (1000 : Nat) := magnitude_ofNat (by decide)
  have hproduct := rounds_mul d.toSeconds (ofNat 1000)
  rw [hthousand, Nat.cast_ofNat] at hproduct
  exact ⟨_, hproduct, abs_roundAbs_sub_le _⟩

theorem roundedMillis_sub_le_of_short (hd : d < 2 ^ 23 * nanosPerSecond) :
    |d.roundedMillis - d.milliseconds| ≤ 1 / 2 := by
  obtain ⟨p, hp, hround⟩ := exists_millis_rounds d
  have hseconds : d.seconds < 2 ^ 23 := by
    rw [seconds, div_lt_iff₀ (by norm_num)]
    exact_mod_cast hd
  obtain ⟨hlow, hhigh⟩ := abs_le.mp (toSeconds_sub_le hd)
  have hlt : d.toSeconds.magnitude * 1000 < 2 ^ 33 := by linarith
  obtain ⟨hlow', hhigh'⟩ := abs_le.mp (hp.abs_sub_le (by decide) hlt)
  obtain ⟨hlow'', hhigh''⟩ := abs_le.mp hround
  refine abs_sub_milliseconds_le_half ?_
  rw [milliseconds_eq, abs_lt]
  constructor <;> linarith

/-- The first duration that can be read and has other milliseconds than the nearest. -/
def nearestLimit : Duration := 8589934592499999

/-- No number of seconds is rounded to a long duration from below. -/
theorem le_magnitude_of_long (h : ofSeconds? x = some d) (hd : 2 ^ 23 * nanosPerSecond ≤ d) :
    2 ^ 23 ≤ x.magnitude := by
  obtain ⟨hlow, hhigh⟩ := abs_le.mp (ofSeconds?_eq_some h).1
  have hseconds : 2 ^ 23 ≤ d.seconds := by
    rw [seconds, le_div_iff₀ (by norm_num)]
    exact_mod_cast hd
  obtain ⟨n, hn⟩ := exists_magnitude_eq_mul (show 2 ^ 22 ≤ x.magnitude by linarith)
  have hlt : (2 : ℚ) ^ 53 < n + 1 := by linarith
  have hle : 2 ^ 53 ≤ n := Nat.le_of_lt_succ (by exact_mod_cast hlt)
  have hle : (2 : ℚ) ^ 53 ≤ n := by exact_mod_cast hle
  linarith

theorem exists_millis_rounds_of_long (h : ofSeconds? x = some d)
    (hd : 2 ^ 23 * nanosPerSecond ≤ d) :
    ∃ (p : Binary64) (q : ℚ), p.Rounds q ∧ 1 ≤ q ∧ q < 2 ^ 1023 ∧
      |q - d.milliseconds| ≤ 1 / 2000000 ∧ |d.roundedMillis - p.magnitude| ≤ 1 / 2 := by
  obtain ⟨p, hp, hround⟩ := exists_millis_rounds d
  have hlong := le_magnitude_of_long h hd
  obtain ⟨herror, hlt⟩ := ofSeconds?_eq_some h
  obtain ⟨hlow, hhigh⟩ := abs_le.mp herror
  rw [toSeconds_ofSeconds? h hlong] at hp
  refine ⟨p, _, hp, by linarith, ?_, ?_, hround⟩
  · have hle : (2 : ℚ) ^ 74 ≤ 2 ^ 1023 := pow_le_pow_right₀ (by norm_num) (by decide)
    refine lt_of_lt_of_le ?_ hle
    linarith
  · rw [milliseconds_eq, abs_le]
    constructor <;> linarith

/-- **Up to the limit the milliseconds are the nearest.** -/
theorem roundedMillis_sub_le (h : ofSeconds? x = some d) (hd : d < nearestLimit) :
    |d.roundedMillis - d.milliseconds| ≤ 1 / 2 := by
  by_cases hlong : d < 2 ^ 23 * nanosPerSecond
  · exact roundedMillis_sub_le_of_short hlong
  obtain ⟨p, q, hp, -, -, herror, hround⟩ := exists_millis_rounds_of_long h (Nat.not_lt.mp hlong)
  obtain ⟨hlow, hhigh⟩ := abs_le.mp herror
  obtain ⟨hlow', hhigh'⟩ := abs_le.mp hround
  by_cases hbinade : q < 2 ^ 33
  · obtain ⟨hlow'', hhigh''⟩ := abs_le.mp (hp.abs_sub_le (by decide) hbinade)
    refine abs_sub_milliseconds_le_half (abs_lt.mpr ?_)
    constructor <;> linarith
  · -- between the power of two and the limit the milliseconds are the power of two
    have hlimit : d.milliseconds ≤ 8589934592.499998 := by
      have hle : (d : ℚ) ≤ 8589934592499998 := by exact_mod_cast Nat.le_of_lt_succ hd
      rw [milliseconds, div_le_iff₀ (by norm_num), cast_nanosPerMilli]
      linarith
    obtain ⟨hlow'', hhigh''⟩ := abs_le.mp (hp.abs_sub_le (e := 34) (by decide) (by linarith))
    have heq : d.roundedMillis = 2 ^ 33 := by
      have hle : (d.roundedMillis : ℚ) < 2 ^ 33 + 1 := by linarith
      have hge : (2 : ℚ) ^ 33 < d.roundedMillis + 1 := by linarith
      have hle : d.roundedMillis < 2 ^ 33 + 1 := by exact_mod_cast hle
      have hge : 2 ^ 33 < d.roundedMillis + 1 := by exact_mod_cast hge
      omega
    rw [heq, abs_le, Nat.cast_pow, Nat.cast_ofNat]
    constructor <;> linarith

theorem wholeMilliseconds_sub_le (h : ofSeconds? x = some d) (hd : d < nearestLimit) :
    |d.wholeMilliseconds - d.milliseconds| ≤ 1 / 2 := by
  have hnearest := roundedMillis_sub_le h hd
  have hfits : d.roundedMillis ≤ (1 <<< 64) - 1 := by
    have hlimit : d.milliseconds < 8589934593 := by
      have hlt : (d : ℚ) < 8589934592499999 := by exact_mod_cast hd
      rw [milliseconds, div_lt_iff₀ (by norm_num), cast_nanosPerMilli]
      linarith
    have hlt : (d.roundedMillis : ℚ) < 8589934594 := by
      linarith [(abs_le.mp hnearest).2]
    have hlt : d.roundedMillis < 8589934594 := by exact_mod_cast hlt
    omega
  rwa [wholeMilliseconds_eq, min_eq_left hfits]

/-- The error of any duration that was read. -/
theorem roundedMillis_sub_le_mul (h : ofSeconds? x = some d) :
    |d.roundedMillis - d.milliseconds| ≤ 1 / 2 + (1 + d / 2 ^ 53) / nanosPerMilli := by
  have hmillis : d.milliseconds * 1000000 = d := by
    rw [milliseconds, cast_nanosPerMilli, div_mul_cancel₀ _ (by norm_num)]
  have hpos : (0 : ℚ) ≤ d := Nat.cast_nonneg d
  rw [cast_nanosPerMilli]
  by_cases hlong : d < 2 ^ 23 * nanosPerSecond
  · refine (roundedMillis_sub_le_of_short hlong).trans (le_add_of_nonneg_right ?_)
    positivity
  · obtain ⟨p, q, hp, hone, hfinite, herror, hround⟩ :=
      exists_millis_rounds_of_long h (Nat.not_lt.mp hlong)
    obtain ⟨hlow, hhigh⟩ := abs_le.mp herror
    obtain ⟨hlow', hhigh'⟩ := abs_le.mp hround
    obtain ⟨hlow'', hhigh''⟩ := abs_le.mp (hp.abs_sub_le_mul hone hfinite)
    rw [abs_le]
    constructor <;> linarith

end AutomationNet.Duration
