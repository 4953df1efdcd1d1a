import AutomationNet.Proofs.Simulation.Reachable
import AutomationNet.Settings

/-!
# The clock of a session

The clock shows the time of a tick for every tick that there has been. Ticks do not end, but the
clock does, and a tick that would pass its end fails. How many ticks fit depends on the setting for
the time of a tick, which a file may give as large as 64 bits hold.

* `Session.Reachable.time_eq` : the clock of every session
* `Session.Round`, `Session.runTicks` : some ticks in a row
* `Session.Consistent.runTicks_cases` : they succeed exactly if the clock has room for all of them
* `Settings.Loaded`, `Settings.Loaded.cycleMillis_le` : the settings that a file can give
* `Session.runTicks_clock` : **how long the clock of a session lasts**
-/

namespace AutomationNet

namespace Session

variable {s : Session} {net : Net}

/-! ## Ticks in a row -/

/-- In every state of a session the clock shows the time of a tick for every tick. -/
theorem Reachable.time_eq (h : Reachable net s) (hnet : net.Sound) :
    s.time = s.tick * s.step ∧ s.time ≤ Duration.maxDuration := by
  induction h with
  | start mode initial step => exact ⟨(Nat.zero_mul step).symm, Nat.zero_le _⟩
  | @tick s hreach order values tick _ hrun ih =>
    obtain ⟨htime, -⟩ := ih
    obtain ⟨-, hconsistent⟩ := hreach.consistent hnet
    rcases runTick_cases hconsistent.chosen_enabled order values with
      ⟨-, herror⟩ | ⟨hclock, tick', hok, hyields⟩
    · cases hrun.symm.trans herror
    · cases hrun.symm.trans hok
      rw [hyields.time, hyields.number, hyields.step]
      exact ⟨by rw [htime, Nat.succ_mul], hclock⟩
  | setMark _ hset ih =>
    obtain ⟨_, -, rfl⟩ := setMark_eq_ok.mp hset
    exact ih
  | addToken _ hadd ih =>
    obtain ⟨_, hset⟩ := setMark_of_addToken hadd
    obtain ⟨_, -, rfl⟩ := setMark_eq_ok.mp hset
    exact ih
  | exit _ ih => exact ih

/-- What a tick is given: the order in which it visits the transitions, and the values of its
inputs. -/
structure Round where
  order : List (Ref Transition)
  values : InputValues

/-- A session after some ticks in a row. -/
def runTicks (s : Session) (rounds : List Round) : Except TickError Session :=
  rounds.foldlM (fun s round => (s.runTick round.order round.values).map Tick.session) s

theorem runTicks_cons_of_ok {round : Round} {tick : Tick}
    (h : s.runTick round.order round.values = .ok tick) (rounds : List Round) :
    s.runTicks (round :: rounds) = tick.session.runTicks rounds := by
  rw [runTicks, List.foldlM_cons, h]
  rfl

theorem runTicks_cons_of_error {round : Round} {e : TickError}
    (h : s.runTick round.order round.values = .error e) (rounds : List Round) :
    s.runTicks (round :: rounds) = .error e := by
  rw [runTicks, List.foldlM_cons, h]
  rfl

/-- Ticks in a row succeed exactly if the clock has room for all of them. -/
theorem Consistent.runTicks_cases (h : s.Consistent) {rounds : List Round}
    (horder : ∀ round ∈ rounds, round.order.Nodup) (htime : s.time ≤ Duration.maxDuration) :
    (Duration.maxDuration < s.time + rounds.length * s.step ∧
        s.runTicks rounds = .error .clockOverflow) ∨
      (s.time + rounds.length * s.step ≤ Duration.maxDuration ∧
        ∃ s', s.runTicks rounds = .ok s' ∧ s'.time = s.time + rounds.length * s.step) := by
  -- The sum stays the same from tick to tick: what the clock gains is what the other ticks lose.
  induction rounds generalizing s with
  | nil =>
    rw [List.length_nil, Nat.zero_mul, Nat.add_zero]
    exact .inr ⟨htime, s, rfl, rfl⟩
  | cons round rounds ih =>
    rw [List.length_cons, Nat.succ_mul]
    rcases runTick_cases h.chosen_enabled round.order round.values with
      ⟨hover, herror⟩ | ⟨hclock, tick, hok, hyields⟩
    · have hle : s.time + s.step ≤ s.time + (rounds.length * s.step + s.step) :=
        Nat.add_le_add_left (Nat.le_add_left _ _) _
      exact .inl ⟨Nat.lt_of_lt_of_le hover hle, runTicks_cons_of_error herror rounds⟩
    · rw [runTicks_cons_of_ok hok]
      have hnext := ih (h.tick (horder round List.mem_cons_self) hyields)
        (fun r hr => horder r (List.mem_cons_of_mem round hr)) (by rwa [hyields.time])
      rw [hyields.time, hyields.step] at hnext
      rwa [Nat.add_comm (rounds.length * s.step), ← Nat.add_assoc]

end Session

/-! ## Settings of a file -/

namespace Settings

/-- The settings that a session can be given: those of a file, or of no file at all. -/
def Loaded (settings : Settings) : Prop :=
  settings = {} ∨ ∃ text, parse? text = some settings

theorem natEntry?_le {entries : Toml.Entries} {key : String} {value : Nat}
    (h : natEntry? entries key = some (some value)) : value ≤ Numeral.maxNat64 := by
  unfold natEntry? at h
  split at h
  · cases h
  · split at h
    · rename_i hrange
      cases h
      exact Int.toNat_le.mpr hrange.2
    · cases h
  · cases h

theorem Loaded.cycleMillis_le {settings : Settings} (h : settings.Loaded) :
    settings.cycleMillis ≤ Numeral.maxNat64 := by
  rcases h with rfl | ⟨text, h⟩
  · decide
  · simp only [parse?, ofEntries?, Option.bind_eq_bind, Option.bind_eq_some_iff, Option.pure_def,
      Option.some.injEq] at h
    obtain ⟨entries, -, cycle, hcycle, _, -, _, -, _, -, rfl⟩ := h
    cases cycle with
    | none => exact (by decide : 10 ≤ Numeral.maxNat64)
    | some value => exact natEntry?_le hcycle

/-- A thousand ticks always fit. -/
theorem Loaded.cycle_le {settings : Settings} (h : settings.Loaded) :
    1000 * settings.cycle ≤ Duration.maxDuration := by
  have hmillis := h.cycleMillis_le
  have hgreatest : 1000 * (Numeral.maxNat64 * Duration.nanosPerMilli) ≤ Duration.maxDuration := by
    decide
  exact Nat.le_trans (Nat.mul_le_mul_left _ (Nat.mul_le_mul_right _ hmillis)) hgreatest

end Settings

/-! ## Result -/

namespace Session

/-- **How long the clock of a session lasts.** Ticks in a row succeed exactly if their time is
within the range of durations, and the clock then shows it. A thousand ticks always do. -/
theorem runTicks_clock {description : NetDescription} {net : Net} {settings : Settings}
    (hnet : Net.assemble description = .ok net) (hsettings : settings.Loaded) (mode : FiringMode)
    (initial : InputValues) {rounds : List Round}
    (horder : ∀ round ∈ rounds, round.order.Perm net.order) :
    (rounds.length * settings.cycle ≤ Duration.maxDuration →
      ∃ s, (start net mode initial settings.cycle).runTicks rounds = .ok s ∧
        s.time = rounds.length * settings.cycle) ∧
    (Duration.maxDuration < rounds.length * settings.cycle →
      (start net mode initial settings.cycle).runTicks rounds = .error .clockOverflow) ∧
    (rounds.length ≤ 1000 →
      ∃ s, (start net mode initial settings.cycle).runTicks rounds = .ok s) := by
  have hsound := Net.assemble_sound hnet
  have hnodup : ∀ round ∈ rounds, round.order.Nodup := fun round hround =>
    (horder round hround).nodup_iff.mpr hsound.order_nodup
  have hcases := (Consistent.start hsound mode initial settings.cycle).runTicks_cases hnodup
    (Nat.zero_le _)
  have htime : (start net mode initial settings.cycle).time +
      rounds.length * (start net mode initial settings.cycle).step =
        rounds.length * settings.cycle := Nat.zero_add _
  rw [htime] at hcases
  have hthousand := hsettings.cycle_le
  rcases hcases with ⟨hover, herror⟩ | ⟨hclock, s, hok, hs⟩
  · refine ⟨fun hclock => absurd hover (Nat.not_lt.mpr hclock), fun _ => herror, fun hlength => ?_⟩
    exact absurd hover (Nat.not_lt.mpr
      (Nat.le_trans (Nat.mul_le_mul_right settings.cycle hlength) hthousand))
  · exact ⟨fun _ => ⟨s, hok, hs⟩, fun hover => absurd hover (Nat.not_lt.mpr hclock),
      fun _ => ⟨s, hok⟩⟩

/-- The greatest time of a tick that is a signed number of milliseconds. -/
def leap : Settings := { cycleMillis := 9223372036854775807 }

theorem leap_loaded : leap.Loaded :=
  .inr ⟨"cycle_interval_ms = 9223372036854775807", by decide +kernel⟩

def plainRounds (net : Net) (count : Nat) : List Round := List.replicate count ⟨net.order, []⟩

theorem order_of_mem_plainRounds (net : Net) (count : Nat) :
    ∀ round ∈ plainRounds net count, round.order.Perm net.order := by
  intro round hround
  rw [List.eq_of_mem_replicate hround]

/-- Two thousand such ticks bring the clock nearly to its end. -/
theorem leap_clock :
    (∃ s, (start rivalsNet .classic [] leap.cycle).runTicks (plainRounds rivalsNet 2000) = .ok s ∧
      s.time = 18446744073709551614000000000) ∧
    (start rivalsNet .classic [] leap.cycle).runTicks (plainRounds rivalsNet 2001) =
      .error .clockOverflow := by
  obtain ⟨hfits, -, -⟩ := runTicks_clock rivals_assembled leap_loaded .classic []
    (order_of_mem_plainRounds rivalsNet 2000)
  obtain ⟨-, hover, -⟩ := runTicks_clock rivals_assembled leap_loaded .classic []
    (order_of_mem_plainRounds rivalsNet 2001)
  rw [plainRounds, List.length_replicate] at hfits hover
  obtain ⟨s, hok, htime⟩ := hfits (by decide)
  exact ⟨⟨s, hok, htime⟩, hover (by decide)⟩

/-- The clock does not last for every number of ticks. -/
theorem leap_overflows :
    ¬ ∀ (description : NetDescription) (net : Net) (text : String) (settings : Settings)
      (mode : FiringMode) (initial : InputValues) (rounds : List Round),
      Net.assemble description = .ok net → Settings.parse? text = some settings →
      (∀ round ∈ rounds, round.order.Perm net.order) →
      ∃ s, (start net mode initial settings.cycle).runTicks rounds = .ok s ∧
        s.time = rounds.length * settings.cycle ∧ s.time ≤ Duration.maxDuration := by
  intro h
  have hparse : Settings.parse? "cycle_interval_ms = 9223372036854775807" = some leap := by
    decide +kernel
  obtain ⟨s, -, htime, hle⟩ := h rivals rivalsNet _ leap .classic [] (plainRounds rivalsNet 2001)
    rivals_assembled hparse (order_of_mem_plainRounds rivalsNet 2001)
  rw [htime, plainRounds, List.length_replicate] at hle
  exact absurd hle (by decide)

end Session

end AutomationNet
