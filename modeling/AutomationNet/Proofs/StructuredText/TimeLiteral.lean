import AutomationNet.Proofs.Duration
import AutomationNet.Proofs.Scanning
import AutomationNet.Proofs.StructuredText.Condition

/-!
# Time literals, as they are read

A literal gives the seconds and the milliseconds of a delay, each with its unit, and leaves out what
is zero. What is read back are the whole milliseconds of the delay, so a literal is as exact as they
are.

* `readTime?` : the milliseconds that a time literal gives
* `readTime?_timeLiteral` : **a time literal reads back as the milliseconds it was written from**
* `timeLiteral_spec` : **the literals of the delays that can be read**, nearest up to
  `Duration.nearestLimit`
-/

namespace AutomationNet

namespace StructuredText

/-- A number with its unit, zero if there is none, and what follows it. -/
def timePart (unit text : List Char) : Nat × List Char :=
  match Numeral.nat? (text.takeWhile Char.isDigit),
      Reader.literal unit (text.dropWhile Char.isDigit) with
  | some n, some ((), rest) => (n, rest)
  | _, _ => (0, text)

/-- The milliseconds that a time literal gives. -/
def readTime? (text : String) : Option Nat :=
  match Reader.literal ['T', '#'] text.toList with
  | none => none
  | some ((), parts) =>
    let (seconds, parts) := timePart ['S'] parts
    let (millis, parts) := timePart ['M', 'S'] parts
    if parts.isEmpty then some (1000 * seconds + millis) else none

theorem timePart_toDigits (n : Nat) (unit rest : List Char)
    (hunit : ∀ c ∈ (unit ++ rest).head?, c.isDigit = false) :
    timePart unit (Nat.toDigits 10 n ++ (unit ++ rest)) = (n, rest) := by
  have hdigits : ∀ c ∈ Nat.toDigits 10 n, c.isDigit = true := fun _ hc =>
    Nat.isDigit_of_mem_toDigits (by decide) (by decide) hc
  rw [timePart, takeWhile_append hdigits hunit, dropWhile_append hdigits hunit,
    Numeral.nat?_toDigits, Reader.literal_append]

theorem timePart_other (n : Nat) {unit text : List Char} (hunit : ¬ unit <+: text)
    (htext : ∀ c ∈ text.head?, c.isDigit = false) :
    timePart unit (Nat.toDigits 10 n ++ text) = (0, Nat.toDigits 10 n ++ text) := by
  have hdigits : ∀ c ∈ Nat.toDigits 10 n, c.isDigit = true := fun _ hc =>
    Nat.isDigit_of_mem_toDigits (by decide) (by decide) hc
  rw [timePart, takeWhile_append hdigits htext, dropWhile_append hdigits htext,
    Numeral.nat?_toDigits, Reader.literal_eq_none hunit]

theorem timePart_nil (unit : List Char) : timePart unit [] = (0, []) := rfl

theorem readTime?_eq {text : String} {parts rest : List Char} {seconds millis : Nat}
    (htext : text.toList = ['T', '#'] ++ parts) (hseconds : timePart ['S'] parts = (seconds, rest))
    (hmillis : timePart ['M', 'S'] rest = (millis, [])) :
    readTime? text = some (1000 * seconds + millis) := by
  rw [readTime?, htext, Reader.literal_append]
  simp only [hseconds, hmillis, List.isEmpty_nil, if_true]

/-- **A time literal reads back as the milliseconds it was written from.** -/
theorem readTime?_timeLiteral (delay : Duration) :
    readTime? (timeLiteral delay) = some delay.wholeMilliseconds := by
  have hsplit := Nat.div_add_mod delay.wholeMilliseconds 1000
  unfold timeLiteral
  dsimp only
  generalize delay.wholeMilliseconds / 1000 = seconds at hsplit ⊢
  generalize delay.wholeMilliseconds % 1000 = millis at hsplit ⊢
  have hmark : "T#".toList = ['T', '#'] := rfl
  have hsecond : "S".toList = ['S'] := rfl
  have hmilli : "MS".toList = ['M', 'S'] := rfl
  have hlast := timePart_toDigits millis ['M', 'S'] [] (by simp)
  rw [List.append_nil] at hlast
  rw [← hsplit]
  rcases Nat.eq_zero_or_pos seconds with rfl | hseconds
  · rw [if_neg (Nat.lt_irrefl 0), if_pos (.inr rfl), String.append_empty]
    refine readTime?_eq ?_ (timePart_other millis (by decide) (by simp)) hlast
    simp only [String.toList_append, Numeral.ofNat, String.toList_ofList, hmark, hmilli]
  rw [if_pos hseconds]
  rcases Nat.eq_zero_or_pos millis with rfl | hmillis
  · rw [if_neg (by omega), String.append_empty]
    refine readTime?_eq ?_ (timePart_toDigits seconds ['S'] [] (by simp)) (timePart_nil _)
    simp only [String.toList_append, Numeral.ofNat, String.toList_ofList, hmark, hsecond,
      List.append_nil]
  · rw [if_pos (.inl hmillis)]
    refine readTime?_eq ?_ (timePart_toDigits seconds _ _ ?_) hlast
    · simp only [String.toList_append, Numeral.ofNat, String.toList_ofList, hmark, hsecond, hmilli,
        List.append_assoc]
    · simp

end StructuredText

theorem exists_ofSeconds?_of_readDelay {t : TransitionDescription} {delay : Duration}
    (h : readDelay t = .ok delay) : ∃ seconds, Duration.ofSeconds? seconds = some delay := by
  unfold readDelay at h
  dsimp only at h
  split at h
  · cases h
    exact ⟨.zero, by decide +kernel⟩
  split at h
  · cases h
  · rename_i seconds hseconds
    split at h
    · cases h
    split at h
    · cases h
    · refine ⟨seconds, ?_⟩
      cases hduration : Duration.ofSeconds? seconds with
      | none => rw [hduration] at h; cases h
      | some duration =>
        rw [hduration] at h
        cases h
        rfl

namespace StructuredText

variable {t : TransitionDescription} {delay : Duration}

/-- **The literals of the delays that can be read.** Up to the limit they read back as the nearest
milliseconds; beyond it they are off by the accuracy of the doubles, and never beyond 64 bits. -/
theorem timeLiteral_spec (h : readDelay t = .ok delay) :
    ∃ millis rounded : Nat, readTime? (timeLiteral delay) = some millis ∧
      millis = min rounded (2 ^ 64 - 1) ∧
      |rounded - delay.milliseconds| ≤ 1 / 2 + (1 + delay / 2 ^ 53) / Duration.nanosPerMilli ∧
      (delay < Duration.nearestLimit → |millis - delay.milliseconds| ≤ 1 / 2) := by
  obtain ⟨seconds, hseconds⟩ := exists_ofSeconds?_of_readDelay h
  refine ⟨delay.wholeMilliseconds, delay.roundedMillis, readTime?_timeLiteral delay,
    delay.wholeMilliseconds_eq, Duration.roundedMillis_sub_le_mul hseconds,
    Duration.wholeMilliseconds_sub_le hseconds⟩

theorem timeLiteral_halfMilli :
    readDelay { id := "T1", name := "wait", delay := "1.0005" } = .ok 1000500000 ∧
      ∃ millis : Nat, readTime? (timeLiteral 1000500000) = some millis ∧
        |(millis : ℚ) - Duration.milliseconds 1000500000| ≤ 1 / 2 := by
  have hdelay : readDelay { id := "T1", name := "wait", delay := "1.0005" } = .ok 1000500000 := by
    decide +kernel
  obtain ⟨millis, -, hread, -, -, hnearest⟩ := timeLiteral_spec hdelay
  exact ⟨hdelay, millis, hread, hnearest (by decide)⟩

/-- The product with a thousand is rounded to a half of a millisecond, which goes up. -/
theorem timeLiteral_nearestLimit :
    readDelay { id := "T1", name := "wait", delay := "8589934.5925" } =
        .ok Duration.nearestLimit ∧
      timeLiteral Duration.nearestLimit = "T#8589934S593MS" ∧
      readTime? "T#8589934S593MS" = some 8589934593 ∧
      |(8589934592 : ℚ) - Duration.nearestLimit.milliseconds| <
        |(8589934593 : ℚ) - Duration.nearestLimit.milliseconds| := by
  refine ⟨by decide +kernel, by decide +kernel, by decide +kernel, ?_⟩
  norm_num [Duration.milliseconds, Duration.nearestLimit, abs_of_neg, abs_of_pos]

/- Three thousand million years are cut to what 64 bits hold of milliseconds. -/
example : readDelay { id := "T1", name := "wait", delay := "1e17" } =
      .ok 100000000000000000000000000 ∧
    timeLiteral 100000000000000000000000000 = "T#18446744073709551S615MS" := by
  decide +kernel

end StructuredText

end AutomationNet
