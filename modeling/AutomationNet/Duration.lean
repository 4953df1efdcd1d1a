import AutomationNet.Number.Binary64

/-!
# Durations

Durations count whole nanoseconds. They turn into seconds, and seconds into them, by rounding.

* `Duration.maxDuration` : the longest duration a clock can show
* `Duration.ofSeconds?` : the nanoseconds nearest to a number of seconds
* `Duration.toSeconds` : the whole seconds and the rest as one number
* `Duration.wholeMilliseconds` : the milliseconds nearest to the seconds
-/

namespace AutomationNet

/-- A length of time in nanoseconds. -/
abbrev Duration := Nat

namespace Duration

def nanosPerSecond : Nat := 1000000000

def nanosPerMilli : Nat := 1000000

/-- Seconds are counted in 64 bits. -/
def maxDuration : Duration := (1 <<< 64) * nanosPerSecond - 1

def ofMillis (millis : Nat) : Duration := millis * nanosPerMilli

/-- The nanoseconds nearest to a number of seconds within `maxDuration`, a tie going to the even
one. -/
def ofSeconds? (seconds : Binary64) : Option Duration :=
  let value := Binary64.scaled seconds.rank
  if value >>> Binary64.unitExponent < 1 <<< 64 then
    some (roundEven (value * nanosPerSecond) (1 <<< Binary64.unitExponent))
  else none

/-- The rounded whole seconds plus the rounded fraction of a second. -/
def toSeconds (d : Duration) : Binary64 :=
  (Binary64.ofNat (d / nanosPerSecond)).addAbs
    ((Binary64.ofNat (d % nanosPerSecond)).div (.ofNat nanosPerSecond))

/-- The milliseconds nearest to `toSeconds`, a half going up, and no more than 64 bits hold. -/
def wholeMilliseconds (d : Duration) : Nat :=
  min (d.toSeconds.mul (.ofNat 1000)).roundAbs ((1 <<< 64) - 1)

end Duration

end AutomationNet
