import AutomationNet.Proofs.Simulation.Interleaving

/-!
# Waking the loop up

The loop sleeps once it has read that the session is paused. A command may come after that reading and
before the sleep, and a wake-up may be left over from long before; so what the loop rests on is not the
state it has read but the wake-up that every change of a paused state leaves.

* `Control.Accepts`, `Control.accepts_iff` : a command changes the state
* `Control.wake_of_accepts` : unless it asks for a pause, it then leaves a wake-up
* `Run.Alert` : while the loop sleeps the session is paused, or a wake-up waits for it
* `Run.Alert.command`, `Run.Alert.next` : no command and no step of the loop ends that
* `Run.asleep_only_paused` : **the loop sleeps only while the session is paused**, and no command is
  slept through
-/

namespace AutomationNet

namespace Control

variable {control : Control} {c : Command}

def Accepts (control : Control) (c : Command) : Prop := (control.apply c).state ≠ control.state

instance (control : Control) (c : Command) : Decidable (control.Accepts c) :=
  inferInstanceAs (Decidable (_ ≠ _))

theorem accepts_iff (control : Control) (c : Command) :
    control.Accepts c ↔ match c with
      | .start => control.state = .paused
      | .pause => control.state = .running
      | .step => control.state = .paused
      | .stop => control.state ≠ .stopping ∧ control.state ≠ .stopped := by
  obtain ⟨state, wake⟩ := control
  cases c <;> cases state <;> simp [Accepts, apply]

theorem wake_of_accepts (h : control.Accepts c) (hpause : c ≠ .pause) :
    (control.apply c).wake = true := by
  rw [accepts_iff] at h
  cases c with
  | pause => exact absurd rfl hpause
  | start => rw [apply, if_pos h]
  | step => rw [apply, if_pos h]
  | stop => rw [apply_stop h.2]

/-- What leaves a paused state leaves a wake-up. -/
theorem paused_or_wake_apply (h : control.state = .paused ∨ control.wake = true) (c : Command) :
    (control.apply c).state = .paused ∨ (control.apply c).wake = true := by
  rcases h with hstate | hwake
  · by_cases haccepts : control.Accepts c
    · have hpause : c ≠ .pause := by
        rintro rfl
        rw [accepts_iff, hstate] at haccepts
        cases haccepts
      exact .inr (wake_of_accepts haccepts hpause)
    · exact .inl ((not_not.mp haccepts).trans hstate)
  · exact .inr (wake_apply hwake c)

end Control

theorem LoopPoint.state_of_next?_sleeping {control control' : Control} {point : LoopPoint}
    (h : point.next? control = some (control', .sleeping)) : control'.state = .paused := by
  cases point with
  | reading =>
    obtain ⟨rfl, hpoint⟩ := Prod.mk.inj (Option.some.inj h)
    cases hstate : control.state with
    | paused => rfl
    | _ =>
      rw [hstate] at hpoint
      cases hpoint
  | sleeping =>
    rw [next?] at h
    split at h <;> cases h
  | ticking single => cases single <;> cases h
  | finished => cases h
  | _ => cases h

namespace Run

variable {session : Session} {control : Control} {run run' : Run} {order : List (Ref Transition)}
  {values : InputValues}

/-- While the loop sleeps the session is paused, or a wake-up waits for the loop. -/
def Alert (run : Run) : Prop :=
  run.point = .sleeping → run.control.state = .paused ∨ run.control.wake = true

namespace Alert

theorem command (h : run.Alert) (c : Command) : (run.command c).Alert := fun hpoint =>
  Control.paused_or_wake_apply (h hpoint) c

theorem next (hnext : run.next? order values = some run') : run'.Alert := by
  intro hpoint
  rcases next?_cases hnext with hstep | ⟨-, -, hfinished⟩
  · rw [hpoint] at hstep
    exact .inl (LoopPoint.state_of_next?_sleeping hstep)
  · rw [hfinished] at hpoint
    cases hpoint

theorem of_interleaved (h : Interleaved { session, control } run) : run.Alert := by
  induction h with
  | refl => exact fun hpoint => nomatch hpoint
  | command _ c ih => exact ih.command c
  | step _ hnext _ => exact next hnext

end Alert

def commands (run : Run) (cs : List Command) : Run := cs.foldl command run

@[simp] theorem point_commands (run : Run) (cs : List Command) : (run.commands cs).point = run.point := by
  induction cs generalizing run with
  | nil => rfl
  | cons c cs ih => exact ih (run.command c)

theorem wake_commands (h : run.control.wake = true) (cs : List Command) :
    (run.commands cs).control.wake = true := by
  induction cs generalizing run with
  | nil => exact h
  | cons c cs ih => exact ih (Control.wake_apply h c)

theorem commands_of_stopped (h : run.control.state = .stopped) (cs : List Command) :
    run.commands cs = run := by
  induction cs with
  | nil => rfl
  | cons c cs ih =>
    have hcommand : run.command c = run := by rw [command, Control.apply_of_stopped h]
    rw [commands, List.foldl_cons, hcommand]
    exact ih

/-! ### Results -/

/-- **The loop sleeps only while the session is paused.** Once it has read `paused`, the state is
`paused` or a wake-up waits. So it has a step to take once a start, a step or a stop has changed the
state, whatever commands follow, and no command changes a session that has been stopped. -/
theorem asleep_only_paused (h : Interleaved { session, control } run) :
    (run.point = .sleeping → run.control.state = .paused ∨ run.control.wake = true) ∧
    (∀ order values, run.next? order values = none →
      run.point = .sleeping ∧ run.control.state = .paused ∨
        run.point = .finished ∧ run.control.state = .stopped) ∧
    (∀ c, run.control.Accepts c → c ≠ .pause → ∀ cs order values,
      ∃ next, ((run.command c).commands cs).next? order values = some next) ∧
    (run.control.state = .stopped → ∀ cs, run.commands cs = run) := by
  refine ⟨Alert.of_interleaved h, fun order values hnone => ?_, fun c haccepts hpause cs order values => ?_,
    commands_of_stopped⟩
  · by_cases hfinished : run.point = .finished
    · exact .inr ⟨hfinished, h.stopped hfinished⟩
    · -- A wake-up would let it go on, so there is none, and the state is the one that was read.
      have hasleep : ¬ (run.point = .sleeping → run.control.wake = true) := fun hwake => by
        have hsome := isSome_next?_of_wake hfinished hwake order values
        rw [hnone] at hsome
        cases hsome
      obtain ⟨hpoint, hwake⟩ := Classical.not_imp.mp hasleep
      exact .inl ⟨hpoint, (Alert.of_interleaved h hpoint).resolve_right hwake⟩
  · have hfinished : run.point ≠ .finished := fun hpoint =>
      haccepts (by rw [Control.apply_of_stopped (h.stopped hpoint)])
    refine Option.isSome_iff_exists.mp (isSome_next?_of_wake ?_ (fun _ => ?_) order values)
    · rwa [point_commands]
    · exact wake_commands (Control.wake_of_accepts haccepts hpause) cs

/-- A pause that follows a start at once does not take back the wake-up. -/
theorem asleep_wakes :
    asleep.control.Accepts .start ∧
      ∃ next, ((asleep.command .start).commands [.pause]).next? [] [] = some next ∧
        next.control = ⟨.pausing, false⟩ := by
  have haccepts : asleep.control.Accepts .start := by decide
  obtain ⟨-, -, hwakes, -⟩ := asleep_only_paused idle_asleep
  obtain ⟨next, hnext⟩ := hwakes .start haccepts nofun [.pause] [] []
  refine ⟨haccepts, next, hnext, ?_⟩
  cases hnext
  rfl

end Run

end AutomationNet
