import AutomationNet.Proofs.Simulation.Reachable
import AutomationNet.Simulation.Run

/-!
# Commands between the steps of a loop

Any number of handles give commands to a loop that takes one step at a time: it reads the state in one
step and writes it in a later one, and every command may fall in between.

* `Run.command`, `Run.Interleaved` : what steps and commands in any order lead to
* `Run.next?_cases` : what a step of the loop does to the state and to where the loop stands
* `Run.Ending` : the session is about to be stopped, or the loop has stopped it
* `Run.Ending.command`, `Run.Ending.next` : no command and no step undoes it, and each step brings the
  end closer
* `Run.Ending.isSome_next?` : the loop does not sleep on the way
* `Run.stop_kept_iff` : **a stop is kept until the loop obeys it, unless it comes between the step that
  reads `pausing` and the one that sets `paused`**
-/

namespace AutomationNet

/-- How many steps the loop is from its end once the session is to be stopped. -/
def LoopPoint.stepsLeft : LoopPoint → Nat
  | .reading => 2
  | .halting => 3
  | .sleeping => 3
  | .ticking single => if single then 5 else 4
  | .settling => 4
  | .reporting => 3
  | .closing => 1
  | .finished => 0

namespace Control

variable {control : Control}

theorem apply_of_stopped (h : control.state = .stopped) (c : Command) : control.apply c = control := by
  cases c <;> simp [apply, h]

theorem state_apply_of_stopping (h : control.state = .stopping) (c : Command) :
    (control.apply c).state = .stopping := by
  cases c <;> simp [apply, h]

theorem apply_stop (h : control.state ≠ .stopped) : control.apply .stop = ⟨.stopping, true⟩ := if_neg h

theorem wake_apply (h : control.wake = true) (c : Command) : (control.apply c).wake = true := by
  unfold apply
  cases c <;> simp only <;> split <;> simp [h]

end Control

/-- The loop ends only by setting `stopped`. -/
theorem LoopPoint.state_of_next?_finished {control control' : Control} {point : LoopPoint}
    (h : point.next? control = some (control', .finished)) : control'.state = .stopped := by
  cases point with
  | closing =>
    cases h
    rfl
  | reading => cases hstate : control.state <;> simp [next?, ofState, hstate] at h
  | sleeping =>
    rw [next?] at h
    split at h <;> cases h
  | ticking single => cases single <;> cases h
  | _ => cases h

theorem LoopPoint.next?_stopping {control control' : Control} {point point' : LoopPoint}
    (hstate : control.state = .stopping) (hpoint : point ≠ .halting)
    (h : point.next? control = some (control', point')) :
    (control'.state = .stopping ∧ point' ≠ .halting ∧ point' ≠ .sleeping ∧ point' ≠ .finished ∨
        control'.state = .stopped ∧ point' = .finished) ∧
      point'.stepsLeft < point.stepsLeft := by
  cases point with
  | halting => exact absurd rfl hpoint
  | finished => cases h
  | reading =>
    rw [next?, hstate] at h
    cases h
    exact ⟨.inl ⟨hstate, nofun, nofun, nofun⟩, by decide⟩
  | sleeping =>
    rw [next?] at h
    split at h
    · cases h
      exact ⟨.inl ⟨hstate, nofun, nofun, nofun⟩, by decide⟩
    · cases h
  | ticking single =>
    cases h
    cases single <;> exact ⟨.inl ⟨hstate, nofun, nofun, nofun⟩, by decide⟩
  | settling =>
    rw [next?, hstate, if_neg nofun] at h
    cases h
    exact ⟨.inl ⟨hstate, nofun, nofun, nofun⟩, by decide⟩
  | reporting =>
    cases h
    exact ⟨.inl ⟨hstate, nofun, nofun, nofun⟩, by decide⟩
  | closing =>
    cases h
    exact ⟨.inr ⟨rfl, rfl⟩, by decide⟩

namespace Run

variable {session : Session} {control : Control} {run run' later : Run} {order : List (Ref Transition)}
  {values : InputValues}

def command (run : Run) (c : Command) : Run := { run with control := run.control.apply c }

/-- What steps of the loop and commands of its handles lead to, in any order. -/
inductive Interleaved (run : Run) : Run → Prop where
  | refl : Interleaved run run
  | command {later : Run} (h : Interleaved run later) (c : Command) :
      Interleaved run (later.command c)
  | step {later later' : Run} (h : Interleaved run later) {order : List (Ref Transition)}
      {values : InputValues} (hnext : later.next? order values = some later') :
      Interleaved run later'

theorem next?_cases (h : run.next? order values = some run') :
    run.point.next? run.control = some (run'.control, run'.point) ∨
      (∃ single, run.point = .ticking single) ∧ run'.control.state = .stopped ∧
        run'.point = .finished := by
  unfold next? at h
  split at h
  · cases h
  · rename_i control point hpoint
    rw [hpoint]
    split at h
    · rename_i single hticking
      rw [hticking, LoopPoint.next?] at hpoint
      split at h
      · cases h
        cases hpoint
        exact .inl rfl
      · cases h
        exact .inr ⟨⟨single, hticking⟩, rfl, rfl⟩
    · rename_i hclosing
      rw [hclosing, LoopPoint.next?] at hpoint
      cases h
      cases hpoint
      exact .inl rfl
    · cases h
      exact .inl rfl

theorem isSome_next? (run : Run) (order : List (Ref Transition)) (values : InputValues) :
    (run.next? order values).isSome = (run.point.next? run.control).isSome := by
  unfold next?
  split
  · rename_i hnone
    rw [hnone]
    rfl
  · rename_i hsome
    rw [hsome]
    split
    · split <;> rfl
    · rfl
    · rfl

/-- A loop that has not ended has a step to take unless it sleeps without a wake-up. -/
theorem isSome_next?_of_wake (hfinished : run.point ≠ .finished)
    (hwake : run.point = .sleeping → run.control.wake = true) (order : List (Ref Transition))
    (values : InputValues) : (run.next? order values).isSome := by
  rw [isSome_next?]
  cases hpoint : run.point with
  | sleeping => simp [LoopPoint.next?, hwake hpoint]
  | finished => exact absurd hpoint hfinished
  | _ => rfl

theorem Interleaved.stopped (h : Interleaved { session, control } run)
    (hpoint : run.point = .finished) : run.control.state = .stopped := by
  induction h with
  | refl => cases hpoint
  | command _ c ih =>
    have hstate := ih hpoint
    rwa [Run.command, Control.apply_of_stopped hstate]
  | step _ hnext _ =>
    rcases next?_cases hnext with hstep | ⟨-, hstate, -⟩
    · rw [hpoint] at hstep
      exact LoopPoint.state_of_next?_finished hstep
    · exact hstate

/-! ## A session about to be stopped -/

/-- The session is about to be stopped, and no step undoes it, or the loop has stopped it. -/
inductive Ending (run : Run) : Prop where
  | stopping (hstate : run.control.state = .stopping) (hhalting : run.point ≠ .halting)
      (hfinished : run.point ≠ .finished)
      (hwake : run.point = .sleeping → run.control.wake = true) : Ending run
  | stopped (hstate : run.control.state = .stopped) (hfinished : run.point = .finished) : Ending run

namespace Ending

theorem of_stop (hstate : run.control.state ≠ .stopped) (hhalting : run.point ≠ .halting)
    (hfinished : run.point ≠ .finished) : (run.command .stop).Ending := by
  have hcontrol : (run.command .stop).control = ⟨.stopping, true⟩ := Control.apply_stop hstate
  exact .stopping (by rw [hcontrol]) hhalting hfinished fun _ => by rw [hcontrol]

theorem command (h : run.Ending) (c : Command) : (run.command c).Ending := by
  cases h with
  | stopping hstate hhalting hfinished hwake =>
    exact .stopping (Control.state_apply_of_stopping hstate c) hhalting hfinished fun hpoint =>
      Control.wake_apply (hwake hpoint) c
  | stopped hstate hfinished =>
    exact .stopped (by rwa [Run.command, Control.apply_of_stopped hstate]) hfinished

theorem next (h : run.Ending) (hnext : run.next? order values = some run') :
    run'.Ending ∧ run'.point.stepsLeft < run.point.stepsLeft := by
  cases h with
  | stopping hstate hhalting _ _ =>
    rcases next?_cases hnext with hstep | ⟨⟨single, hpoint⟩, hstopped, hfinished⟩
    · obtain ⟨hcase, hlt⟩ := LoopPoint.next?_stopping hstate hhalting hstep
      refine ⟨?_, hlt⟩
      rcases hcase with ⟨hstate', hhalting', hsleeping', hfinished'⟩ | ⟨hstopped, hfinished'⟩
      · exact .stopping hstate' hhalting' hfinished' fun hpoint => absurd hpoint hsleeping'
      · exact .stopped hstopped hfinished'
    · refine ⟨.stopped hstopped hfinished, ?_⟩
      rw [hpoint, hfinished]
      cases single <;> decide
  | stopped _ hfinished =>
    rw [next?, hfinished] at hnext
    cases hnext

theorem interleaved (h : run.Ending) (hlater : Interleaved run later) : later.Ending := by
  induction hlater with
  | refl => exact h
  | command _ c ih => exact ih.command c
  | step _ hnext ih => exact (ih.next hnext).1

/-- The loop has a step to take until its end: it does not sleep without a wake-up. -/
theorem isSome_next? (h : run.Ending) (hfinished : run.point ≠ .finished)
    (order : List (Ref Transition)) (values : InputValues) : (run.next? order values).isSome := by
  cases h with
  | stopped _ hpoint => exact absurd hpoint hfinished
  | stopping _ _ _ hwake => exact isSome_next?_of_wake hfinished hwake order values

end Ending

/-! ### A stop that is lost -/

def idle : Run := { session := .start Session.rivalsNet .classic [] 10000000 }

def asleep : Run := { idle with point := .sleeping }

/-- The loop has read `pausing` and is about to pause. -/
def aboutToPause : Run := { idle with control := ⟨.pausing, true⟩, point := .halting }

def paused : Run := { idle with control := ⟨.paused, true⟩ }

theorem idle_asleep : Interleaved idle asleep := by
  have hnext : idle.next? [] [] = some asleep := rfl
  exact Interleaved.refl.step hnext

theorem idle_aboutToPause : Interleaved idle aboutToPause := by
  have hnext : ((idle.command .start).command .pause).next? [] [] = some aboutToPause := rfl
  exact ((Interleaved.refl.command .start).command .pause).step hnext

/-- Not every stop is kept: one that comes when the loop is about to pause is written over. -/
theorem stop_not_kept :
    ¬ ∀ (description : NetDescription) (net : Net) (mode : FiringMode) (initial : InputValues)
        (step : Duration) (run later : Run), Net.assemble description = .ok net →
      Interleaved { session := .start net mode initial step } run →
      run.control.state ≠ .stopped → Interleaved (run.command .stop) later →
      later.control.state = .stopping ∨ later.control.state = .stopped := by
  intro h
  have hnext : (aboutToPause.command .stop).next? [] [] = some paused := rfl
  have hkept := h Session.rivals Session.rivalsNet .classic [] 10000000 aboutToPause paused
    Session.rivals_assembled idle_aboutToPause nofun (Interleaved.refl.step hnext)
  rcases hkept with hstopping | hstopped
  · cases hstopping
  · cases hstopped

/-! ### Results -/

/-- **A stop is kept until the loop obeys it, unless it comes between the step that reads `pausing` and
the one that sets `paused`.** If it is kept, the loop does not sleep before its end, and each of its
steps, of which five are enough, brings the end closer. -/
theorem stop_kept_iff (h : Interleaved { session, control } run)
    (hstate : run.control.state ≠ .stopped) :
    (run.point ≠ .halting ↔ ∀ later, Interleaved (run.command .stop) later →
      later.control.state = .stopping ∨
        later.control.state = .stopped ∧ later.point = .finished) ∧
    (run.point ≠ .halting → run.point.stepsLeft ≤ 5 ∧ ∀ later,
      Interleaved (run.command .stop) later → later.point ≠ .finished →
        ∀ order values, ∃ next, later.next? order values = some next ∧
          next.point.stepsLeft < later.point.stepsLeft) := by
  have hfinished : run.point ≠ .finished := fun hpoint => hstate (h.stopped hpoint)
  refine ⟨⟨fun hhalting later hlater => ?_, fun hkept hhalting => ?_⟩, fun hhalting => ⟨?_, ?_⟩⟩
  · cases (Ending.of_stop hstate hhalting hfinished).interleaved hlater with
    | stopping hstopping _ _ _ => exact .inl hstopping
    | stopped hstopped hpoint => exact .inr ⟨hstopped, hpoint⟩
  · -- The next step of the loop sets `paused`, whatever the state is by then.
    have hnext : (run.command .stop).next? [] [] =
        some ((run.command .stop).goTo ⟨.paused, (run.command .stop).control.wake⟩ .reading) := by
      rw [next?, show (run.command .stop).point = .halting from hhalting]
      rfl
    rcases hkept _ (Interleaved.refl.step hnext) with hstopping | ⟨hstopped, -⟩
    · cases hstopping
    · cases hstopped
  · cases hpoint : run.point with
    | ticking single => cases single <;> decide
    | _ => decide
  · intro later hlater hpoint order values
    have hending := (Ending.of_stop hstate hhalting hfinished).interleaved hlater
    obtain ⟨next, hnext⟩ := Option.isSome_iff_exists.mp (hending.isSome_next? hpoint order values)
    exact ⟨next, hnext, (hending.next hnext).2⟩

theorem asleep_stop_kept :
    asleep.point = .sleeping ∧ ∀ later, Interleaved (asleep.command .stop) later →
      later.control.state = .stopping ∨
        later.control.state = .stopped ∧ later.point = .finished :=
  ⟨rfl, (stop_kept_iff idle_asleep nofun).1.mp nofun⟩

end Run

end AutomationNet
