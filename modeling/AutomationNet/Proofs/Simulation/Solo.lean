import AutomationNet.Proofs.Simulation.Waking

/-!
# Sessions used from a single thread

A thread that has the loop to itself gets its turn before a run, while the loop sleeps, in answer to a
report and after a run, but never between the loop's reading of the state and what it does about it. So
whatever the loop has read is still so when it acts (`LoopPoint.Agrees`), and each command has the
effect its name promises.

* `LoopPoint.yields` : where such a thread gets its turn
* `Note`, `Run.Solo` : commands in turn, steps of the loop and further runs, with a log of them
* `Run.next?_eq_some` : all that a step of the loop does
* `Run.Due` : the loop is to run a single tick, and the session stays so until it is reported
* `Run.Calm` : nothing is to run before another start or step
* `Run.Solo.tallied` : the ticks handed over are those reported
* `Run.solo_contract` : **step, pause, stop and the end of a run, for all commands in any turns**
-/

namespace AutomationNet

def LoopPoint.yields : LoopPoint → Bool
  | .reading => true
  | .sleeping => true
  | .reporting => true
  | .finished => true
  | _ => false

/-- What the loop has read is still so, or no longer matters. -/
def LoopPoint.Agrees (control : Control) : LoopPoint → Prop
  | .reading => True
  | .halting => control.state = .pausing
  | .sleeping => control.state = .paused ∨ control.wake = true
  | .ticking single => control.state = if single then .stepping else .running
  | .settling => control.state = .stepping
  | .reporting => True
  | .closing => control.state = .stopping ∨ control.state = .stopped
  | .finished => control.state = .stopped

namespace LoopPoint

variable {control control' : Control} {point point' : LoopPoint}

theorem Agrees.apply (h : point.Agrees control) (hyields : point.yields = true) (c : Command) :
    point.Agrees (control.apply c) := by
  cases point with
  | reading => trivial
  | reporting => trivial
  | sleeping => exact Control.paused_or_wake_apply h c
  | finished => exact (congrArg Control.state (Control.apply_of_stopped h c)).trans h
  | _ => cases hyields

theorem Agrees.next (h : point.Agrees control) (hstep : point.next? control = some (control', point')) :
    point'.Agrees control' := by
  cases point with
  | reading =>
    cases hstep
    cases hstate : control.state with
    | paused => exact .inl hstate
    | stopping => exact .inl hstate
    | stopped => exact .inr hstate
    | _ => exact hstate
  | ticking single =>
    cases hstep
    cases single with
    | true => exact h
    | false => trivial
  | sleeping =>
    rw [next?] at hstep
    split at hstep
    · cases hstep
      trivial
    · cases hstep
  | closing =>
    cases hstep
    rfl
  | finished => cases hstep
  | _ =>
    cases hstep
    trivial

/-- The loop sets nothing but `paused`, after `pausing` or `stepping`, and `stopped` where it
ends. -/
theorem state_of_next? (h : point.Agrees control) (hstep : point.next? control = some (control', point')) :
    control'.state = control.state ∨
      control'.state = .paused ∧ (control.state = .pausing ∨ control.state = .stepping) ∨
      control'.state = .stopped ∧ point' = .finished := by
  cases point with
  | halting =>
    cases hstep
    exact .inr (.inl ⟨rfl, .inl h⟩)
  | settling =>
    have hcontrol : control'.state = .paused := by
      rw [next?, if_pos (show control.state = .stepping from h)] at hstep
      cases hstep
      rfl
    exact .inr (.inl ⟨hcontrol, .inr h⟩)
  | closing =>
    cases hstep
    exact .inr (.inr ⟨rfl, rfl⟩)
  | sleeping =>
    rw [next?] at hstep
    split at hstep
    · cases hstep
      exact .inl rfl
    · cases hstep
  | finished => cases hstep
  | _ =>
    cases hstep
    exact .inl rfl

theorem next?_of_not_ticking (h : ∀ single, point ≠ .ticking single)
    (hstep : point.next? control = some (control', point')) :
    (point' = .reporting ↔ point = .settling) ∧ point' ≠ .settling := by
  cases point with
  | ticking single => exact absurd rfl (h single)
  | reading =>
    cases hstep
    cases control.state <;> simp [ofState]
  | sleeping =>
    rw [next?] at hstep
    split at hstep
    · cases hstep
      simp
    · cases hstep
  | finished => cases hstep
  | _ =>
    cases hstep
    simp

end LoopPoint

/-- What happens in a session: a command, which may change the state or not; the report of a tick, with
its number and the state in which it is handed over; and the beginning of another run. -/
inductive Note where
  | command (c : Command) (accepted : Bool)
  | report (number : Nat) (state : RunState)
  | again
  deriving DecidableEq

namespace Note

/-- What a single tick comes to: its report, or a stop before it. -/
def endsStep : Note → Bool
  | .command .stop _ => true
  | .report _ _ => true
  | _ => false

/-- How many reports a log tells of since the beginning of its last run. -/
def reports (log : List Note) : Nat :=
  log.foldl (fun n note => match note with
    | .command _ _ => n
    | .report _ _ => n + 1
    | .again => 0) 0

end Note

namespace Run

variable {session : Session} {net : Net} {start run run' later : Run} {log : List Note}
  {order : List (Ref Transition)} {values : InputValues}

/-- What a step of the loop that leads to this run adds to the log. -/
def note (run : Run) : List Note :=
  if run.point = .reporting then [.report run.session.tick run.control.state] else []

/-- What a single thread leads to: it gives commands when it gets its turn, and it may begin another run
once one has ended, or give up one that sleeps. Ticks visit the transitions in any order. -/
inductive Solo (start : Run) : List Note → Run → Prop where
  | refl : Solo start [] start
  | command {log : List Note} {run : Run} (h : Solo start log run) (hturn : run.point.yields = true)
      (c : Command) :
      Solo start (log ++ [.command c (decide (run.control.Accepts c))]) (run.command c)
  | step {log : List Note} {run run' : Run} (h : Solo start log run) {order : List (Ref Transition)}
      {values : InputValues} (horder : order.Perm run.session.net.order)
      (hnext : run.next? order values = some run') : Solo start (log ++ run'.note) run'
  | again {log : List Note} {run : Run} (h : Solo start log run)
      (hturn : run.point = .sleeping ∨ run.point = .finished) :
      Solo start (log ++ [.again]) run.again

/-! ## Steps -/

theorem next?_eq_some (h : run.next? order values = some run') :
    (∃ single tick, run.point = .ticking single ∧ run.session.runTick order values = .ok tick ∧
      run' = run.ticked tick (if single then .settling else .reporting)) ∨
    (∃ single e, run.point = .ticking single ∧ run.session.runTick order values = .error e ∧
      run' = run.close (some e)) ∨
    (run.point = .closing ∧ run' = run.close none) ∨
    (∃ control point, (∀ single, run.point ≠ .ticking single) ∧
      run.point.next? run.control = some (control, point) ∧ point ≠ .finished ∧
      run' = run.goTo control point) := by
  unfold next? at h
  split at h
  · cases h
  · rename_i control point hpoint
    split at h
    · rename_i single hticking
      rw [hticking] at hpoint
      cases hpoint
      split at h
      · rename_i tick hok
        exact .inl ⟨single, tick, hticking, hok, (Option.some.inj h).symm⟩
      · rename_i e herror
        exact .inr (.inl ⟨single, e, hticking, herror, (Option.some.inj h).symm⟩)
    · rename_i hclosing
      exact .inr (.inr (.inl ⟨hclosing, (Option.some.inj h).symm⟩))
    · rename_i hticking hclosing
      refine .inr (.inr (.inr ⟨control, point, hticking, hpoint, ?_, (Option.some.inj h).symm⟩))
      rintro rfl
      cases hat : run.point with
      | reading =>
        rw [hat] at hpoint
        cases hstate : run.control.state <;> simp [LoopPoint.next?, LoopPoint.ofState, hstate] at hpoint
      | sleeping =>
        rw [hat, LoopPoint.next?] at hpoint
        split at hpoint <;> cases hpoint
      | ticking single => exact hticking single hat
      | closing => exact hclosing hat
      | _ =>
        rw [hat] at hpoint
        cases hpoint

theorem agrees_next (h : run.point.Agrees run.control) (hnext : run.next? order values = some run') :
    run'.point.Agrees run'.control := by
  rcases next?_cases hnext with hstep | ⟨-, hstopped, hfinished⟩
  · exact h.next hstep
  · rw [hfinished]
    exact hstopped

/-- A step sets nothing but `paused`, after `pausing` or `stepping`, and `stopped` where it ends the
run. -/
theorem state_next (h : run.point.Agrees run.control) (hnext : run.next? order values = some run') :
    run'.control.state = run.control.state ∨
      run'.control.state = .paused ∧
        (run.control.state = .pausing ∨ run.control.state = .stepping) ∨
      run'.control.state = .stopped ∧ run'.point = .finished := by
  rcases next?_cases hnext with hstep | ⟨-, hend⟩
  · exact LoopPoint.state_of_next? h hstep
  · exact .inr (.inr hend)

theorem of_next?_reporting (hnext : run.next? order values = some run')
    (hpoint : run'.point = .reporting) :
    (∃ single, run.point = .ticking single) ∨ run.point = .settling := by
  rcases next?_cases hnext with hstep | ⟨hticking, -, -⟩
  · by_cases hticking : ∃ single, run.point = .ticking single
    · exact .inl hticking
    · exact .inr ((LoopPoint.next?_of_not_ticking (not_exists.mp hticking) hstep).1.mp hpoint)
  · exact .inl hticking

theorem Solo.reachable (h : Solo start log later) (hnet : net.Sound)
    (hstart : Session.Reachable net start.session) : Session.Reachable net later.session := by
  induction h with
  | refl => exact hstart
  | command _ _ c ih => exact ih
  | again _ _ ih => exact ih
  | step _ horder hnext ih =>
    rcases next?_eq_some hnext with
      ⟨_, tick, -, hrun, rfl⟩ | ⟨_, e, -, -, rfl⟩ | ⟨-, rfl⟩ | ⟨_, _, -, -, -, rfl⟩
    · have hsession := (ih.consistent hnet).1
      exact ih.tick (hsession ▸ horder) hrun
    · exact ih.exit
    · exact ih.exit
    · exact ih

theorem Solo.agrees (h : Solo start log later) (hstart : start.point.Agrees start.control) :
    later.point.Agrees later.control := by
  induction h with
  | refl => exact hstart
  | command _ hturn c ih => exact ih.apply hturn c
  | step _ _ hnext ih => exact agrees_next ih hnext
  | again _ _ _ => trivial

/-! ## Sessions in which nothing is to run -/

/-- No tick is running, and none is to run. -/
structure Calm (run : Run) : Prop where
  agrees : run.point.Agrees run.control
  state : run.control.state ≠ .running ∧ run.control.state ≠ .stepping

namespace Calm

theorem of_state (hagrees : run.point.Agrees run.control) {state : RunState}
    (hstate : run.control.state = state) (hcalm : state ≠ .running ∧ state ≠ .stepping) :
    run.Calm :=
  ⟨hagrees, hstate ▸ hcalm⟩

theorem not_ticking (h : run.Calm) (single : Bool) : run.point ≠ .ticking single := by
  intro hpoint
  have hagrees := h.agrees
  rw [hpoint] at hagrees
  cases single with
  | true => exact h.state.2 hagrees
  | false => exact h.state.1 hagrees

theorem not_settling (h : run.Calm) : run.point ≠ .settling := by
  intro hpoint
  have hagrees := h.agrees
  rw [hpoint] at hagrees
  exact h.state.2 hagrees

theorem command (h : run.Calm) (hturn : run.point.yields = true) {c : Command}
    (hc : c = .start ∨ c = .step → ¬ run.control.Accepts c) : (run.command c).Calm := by
  have hagrees := h.agrees.apply hturn c
  by_cases haccepts : run.control.Accepts c
  · cases c with
    | start => exact absurd haccepts (hc (.inl rfl))
    | step => exact absurd haccepts (hc (.inr rfl))
    | pause => exact absurd ((Control.accepts_iff _ _).mp haccepts) h.state.1
    | stop =>
      have hstop := Control.apply_stop ((Control.accepts_iff _ _).mp haccepts).2
      exact of_state hagrees (congrArg Control.state hstop) (by decide)
  · have hsame : (run.command c).control.state = run.control.state := not_not.mp haccepts
    exact of_state hagrees hsame h.state

theorem next (h : run.Calm) (hnext : run.next? order values = some run') :
    run'.Calm ∧ run'.point ≠ .reporting := by
  have hagrees := agrees_next h.agrees hnext
  refine ⟨?_, fun hpoint => ?_⟩
  · rcases state_next h.agrees hnext with hstate | ⟨hstate, -⟩ | ⟨hstate, -⟩
    · exact of_state hagrees hstate h.state
    · exact of_state hagrees hstate (by decide)
    · exact of_state hagrees hstate (by decide)
  · rcases of_next?_reporting hnext hpoint with ⟨single, hticking⟩ | hsettling
    · exact h.not_ticking single hticking
    · exact h.not_settling hsettling

end Calm

theorem note_eq_nil (h : run.point ≠ .reporting) : run.note = [] := if_neg h

/-- Without another start or step no tick runs and none is reported. -/
theorem Solo.calm (h : Solo start log later) (hstart : start.Calm)
    (hlog : ∀ c, c = .start ∨ c = .step → Note.command c true ∉ log) :
    later.Calm ∧ ∀ number state, Note.report number state ∉ log := by
  induction h with
  | refl => exact ⟨hstart, fun _ _ => List.not_mem_nil⟩
  | @command log run h hturn c ih =>
    obtain ⟨hcalm, hreport⟩ := ih fun c hc hmem => hlog c hc (List.mem_append_left _ hmem)
    refine ⟨hcalm.command hturn fun hc haccepts => hlog c hc ?_, fun number state => ?_⟩
    · rw [decide_eq_true haccepts]
      exact List.mem_append_right _ (List.mem_singleton_self _)
    · simp [hreport]
  | step _ _ hnext ih =>
    obtain ⟨hcalm, hreport⟩ := ih fun c hc hmem => hlog c hc (List.mem_append_left _ hmem)
    obtain ⟨hcalm', hpoint⟩ := hcalm.next hnext
    rw [note_eq_nil hpoint, List.append_nil]
    exact ⟨hcalm', hreport⟩
  | again _ _ ih =>
    obtain ⟨hcalm, hreport⟩ := ih fun c hc hmem => hlog c hc (List.mem_append_left _ hmem)
    exact ⟨⟨trivial, hcalm.state⟩, fun number state => by simp [hreport]⟩

/-- The session is to be stopped, or has been. -/
structure Over (run : Run) : Prop where
  agrees : run.point.Agrees run.control
  state : run.control.state = .stopping ∨ run.control.state = .stopped

namespace Over

theorem calm (h : run.Over) : run.Calm := by
  rcases h.state with hstate | hstate
  · exact .of_state h.agrees hstate (by decide)
  · exact .of_state h.agrees hstate (by decide)

theorem of_stop (h : run.point.Agrees run.control) (hturn : run.point.yields = true) :
    (run.command .stop).Over := by
  refine ⟨h.apply hturn .stop, ?_⟩
  by_cases hstate : run.control.state = .stopped
  · rw [Run.command, Control.apply_of_stopped hstate]
    exact .inr hstate
  · rw [Run.command, Control.apply_stop hstate]
    exact .inl rfl

theorem command (h : run.Over) (hturn : run.point.yields = true) (c : Command) :
    (run.command c).Over := by
  refine ⟨h.agrees.apply hturn c, ?_⟩
  rcases h.state with hstate | hstate
  · exact .inl (Control.state_apply_of_stopping hstate c)
  · exact .inr (by rwa [Run.command, Control.apply_of_stopped hstate])

theorem not_accepts (h : run.Over) {c : Command} (hc : c = .start ∨ c = .step) :
    ¬ run.control.Accepts c := by
  rw [Control.accepts_iff]
  rcases h.state with hstate | hstate <;> rcases hc with rfl | rfl <;> rw [hstate] <;> decide

theorem next (h : run.Over) (hnext : run.next? order values = some run') : run'.Over := by
  refine ⟨agrees_next h.agrees hnext, ?_⟩
  rcases state_next h.agrees hnext with hstate | ⟨-, hpaused⟩ | ⟨hstopped, -⟩
  · rw [hstate]
    exact h.state
  · rcases h.state with hstate | hstate <;> simp [hstate] at hpaused
  · exact .inr hstopped

end Over

/-- After a stop no start and no step is accepted, not even in a later run. -/
theorem Solo.over (h : Solo start log later) (hstart : start.Over) :
    later.Over ∧ ∀ c, c = .start ∨ c = .step → Note.command c true ∉ log := by
  induction h with
  | refl => exact ⟨hstart, fun _ _ => List.not_mem_nil⟩
  | @command log run h hturn c ih =>
    refine ⟨ih.1.command hturn c, fun c' hc' hmem => ?_⟩
    rcases List.mem_append.mp hmem with hmem | hmem
    · exact ih.2 c' hc' hmem
    · obtain ⟨rfl, haccepts⟩ := Note.command.inj (List.mem_singleton.mp hmem)
      exact ih.1.not_accepts hc' (of_decide_eq_true haccepts.symm)
  | @step log run run' h order values horder hnext ih =>
    refine ⟨ih.1.next hnext, fun c hc hmem => ?_⟩
    rw [note_eq_nil (ih.1.calm.next hnext).2, List.append_nil] at hmem
    exact ih.2 c hc hmem
  | again _ _ ih =>
    refine ⟨⟨trivial, ih.1.state⟩, fun c hc hmem => ?_⟩
    rcases List.mem_append.mp hmem with hmem | hmem
    · exact ih.2 c hc hmem
    · cases List.mem_singleton.mp hmem

/-! ## A single tick -/

/-- Within so many steps the loop, left to itself, reports the tick of this number in a paused session,
whatever order the tick visits the transitions in and whatever its inputs are. -/
def ReportsWithin (number : Nat) : Nat → Run → Prop
  | 0, _ => False
  | n + 1, run => ∀ order values, ∃ next, run.next? order values = some next ∧
      (next.point = .reporting ∧ next.control.state = .paused ∧ next.session.tick = number ∨
        next.ReportsWithin number n)

/-- A single tick of this session is to run, or has run and is about to be settled. -/
structure Due (session : Session) (run : Run) : Prop where
  agrees : run.point.Agrees run.control
  state : run.control.state = .stepping
  session_eq : run.point ≠ .settling → run.session = session
  tick_eq : run.point = .settling → run.session.tick = session.tick + 1

/-- How many steps the loop is from the report of a single tick. -/
def stepsToReport : LoopPoint → Nat
  | .settling => 1
  | .ticking _ => 2
  | .reading => 3
  | _ => 4

namespace Due

theorem goTo (h : run.Due session) (hrun : run.point ≠ .settling) {control : Control}
    {point : LoopPoint} (hagrees : point.Agrees control) (hstate : control.state = .stepping)
    (hpoint : point ≠ .settling) : (run.goTo control point).Due session :=
  ⟨hagrees, hstate, fun _ => h.session_eq hrun, fun heq => absurd heq hpoint⟩

/-- A step of the loop while a single tick is due: the tick comes closer, or is reported, or fails since
the clock has come to its end. -/
theorem next (h : run.Due session) (hreachable : Session.Reachable net session) (hnet : net.Sound)
    (hnext : run.next? order values = some run') :
    (run'.Due session ∧ run'.point ≠ .reporting ∧
        stepsToReport run'.point < stepsToReport run.point) ∨
      (run'.point = .reporting ∧ run'.control.state = .paused ∧
        run'.session.tick = session.tick + 1) ∨
      (Duration.maxDuration < session.time + session.step ∧ run'.point ≠ .reporting ∧ run'.Over) := by
  have hagrees := h.agrees
  have hagrees' := agrees_next hagrees hnext
  have hstate := h.state
  rcases next?_eq_some hnext with ⟨single, tick, hpoint, hrun, rfl⟩ | ⟨single, e, hpoint, hrun, rfl⟩ |
    ⟨hpoint, rfl⟩ | ⟨control, point, hticking, hstep, -, rfl⟩
  · rw [h.session_eq (by simp [hpoint])] at hrun
    have hyields := (hreachable.consistent hnet).2.yields hrun
    rw [hpoint, LoopPoint.Agrees, hstate] at hagrees
    cases single with
    | false => cases hagrees
    | true =>
      refine .inl ⟨⟨hagrees', hstate, fun hne => absurd rfl hne, fun _ => hyields.number⟩,
        (by decide : LoopPoint.settling ≠ .reporting), ?_⟩
      rw [hpoint]
      exact (by decide : 1 < 2)
  · rw [h.session_eq (by simp [hpoint])] at hrun
    rcases Session.runTick_cases (hreachable.consistent hnet).2.chosen_enabled order values with
      ⟨hclock, -⟩ | ⟨-, tick, hok, -⟩
    · exact .inr (.inr ⟨hclock, (by decide : LoopPoint.finished ≠ .reporting), hagrees', .inr rfl⟩)
    · rw [hrun] at hok
      cases hok
  · rw [hpoint, LoopPoint.Agrees, hstate] at hagrees
    rcases hagrees with hagrees | hagrees <;> cases hagrees
  · cases hpoint : run.point with
    | reading =>
      rw [hpoint, LoopPoint.next?, hstate] at hstep
      cases hstep
      exact .inl ⟨h.goTo (by simp [hpoint]) hagrees' hstate (by decide),
        (by decide : LoopPoint.ticking true ≠ .reporting), (by decide : 2 < 3)⟩
    | sleeping =>
      rw [hpoint, LoopPoint.next?] at hstep
      split at hstep
      · cases hstep
        exact .inl ⟨h.goTo (by simp [hpoint]) hagrees' hstate (by decide),
          (by decide : LoopPoint.reading ≠ .reporting), (by decide : 3 < 4)⟩
      · cases hstep
    | settling =>
      rw [hpoint, LoopPoint.next?, if_pos hstate] at hstep
      cases hstep
      exact .inr (.inl ⟨rfl, rfl, h.tick_eq hpoint⟩)
    | reporting =>
      rw [hpoint] at hstep
      cases hstep
      exact .inl ⟨h.goTo (by simp [hpoint]) hagrees' hstate (by decide),
        (by decide : LoopPoint.reading ≠ .reporting), (by decide : 3 < 4)⟩
    | ticking single => exact absurd hpoint (hticking single)
    | halting =>
      rw [hpoint, LoopPoint.Agrees, hstate] at hagrees
      cases hagrees
    | closing =>
      rw [hpoint, LoopPoint.Agrees, hstate] at hagrees
      rcases hagrees with hagrees | hagrees <;> cases hagrees
    | finished =>
      rw [hpoint] at hstep
      cases hstep

theorem exists_next (h : run.Due session) (order : List (Ref Transition)) (values : InputValues) :
    ∃ next, run.next? order values = some next := by
  have hagrees := h.agrees
  refine Option.isSome_iff_exists.mp (isSome_next?_of_wake ?_ ?_ order values)
  · intro hpoint
    rw [hpoint, LoopPoint.Agrees, h.state] at hagrees
    cases hagrees
  · intro hpoint
    rw [hpoint, LoopPoint.Agrees, h.state] at hagrees
    exact hagrees.resolve_left nofun

theorem reportsWithin (hreachable : Session.Reachable net session) (hnet : net.Sound)
    (hclock : session.time + session.step ≤ Duration.maxDuration) {n : Nat} {run : Run}
    (h : run.Due session) (hn : stepsToReport run.point ≤ n) :
    run.ReportsWithin (session.tick + 1) n := by
  induction n generalizing run with
  | zero =>
    cases hpoint : run.point <;> simp [hpoint, stepsToReport] at hn
  | succ n ih =>
    intro order values
    obtain ⟨next, hnext⟩ := h.exists_next order values
    refine ⟨next, hnext, ?_⟩
    rcases h.next hreachable hnet hnext with ⟨hdue, -, hlt⟩ | hreport | ⟨hover, -⟩
    · exact .inr (ih hdue (by omega))
    · exact .inl hreport
    · exact absurd hover (Nat.not_lt.mpr hclock)

end Due

theorem Due.command (h : run.Due session) (hturn : run.point.yields = true) {c : Command}
    (hc : c ≠ .stop) : (run.command c).Due session := by
  refine ⟨h.agrees.apply hturn c, ?_, h.session_eq, h.tick_eq⟩
  have hrefused : ¬ run.control.Accepts c := by
    rw [Control.accepts_iff, h.state]
    cases c with
    | stop => exact absurd rfl hc
    | _ => nofun
  exact (not_not.mp hrefused).trans h.state

/-- What has come of a step by a later point of the log: the first report, unless a stop comes
before it, is that of its tick in a paused session. Until then the tick is due. -/
structure Outcome (session : Session) (log : List Note) (run : Run) : Prop where
  reported : ∀ number state, log.find? Note.endsStep = some (.report number state) →
    number = session.tick + 1 ∧ state = .paused
  pending : log.find? Note.endsStep = none →
    run.Due session ∨ Duration.maxDuration < session.time + session.step ∧ run.Over

namespace Outcome

theorem append (h : Outcome session log run) {notes : List Note}
    (hnotes : run.Due session ∨ Duration.maxDuration < session.time + session.step ∧ run.Over →
      Outcome session notes run') : Outcome session (log ++ notes) run' := by
  cases hfind : log.find? Note.endsStep with
  | some note =>
    have hfind' : (log ++ notes).find? Note.endsStep = log.find? Note.endsStep := by
      rw [List.find?_append, hfind]
      rfl
    exact ⟨fun number state hreport => h.reported number state (hfind' ▸ hreport), fun hnone => by
      rw [hfind', hfind] at hnone
      cases hnone⟩
  | none =>
    have hfind' : (log ++ notes).find? Note.endsStep = notes.find? Note.endsStep := by
      rw [List.find?_append, hfind]
      rfl
    have houtcome := hnotes (h.pending hfind)
    exact ⟨fun number state hreport => houtcome.reported number state (hfind' ▸ hreport),
      fun hnone => houtcome.pending (hfind' ▸ hnone)⟩

theorem command (h : run.Due session ∨ Duration.maxDuration < session.time + session.step ∧ run.Over)
    (hturn : run.point.yields = true) (c : Command) (accepted : Bool) :
    Outcome session [.command c accepted] (run.command c) := by
  by_cases hstop : c = .stop
  · subst hstop
    exact ⟨nofun, nofun⟩
  · refine ⟨fun number state hreport => ?_, fun _ => ?_⟩
    · cases c <;> cases hreport
    · rcases h with hdue | ⟨hclock, hover⟩
      · exact .inl (hdue.command hturn hstop)
      · exact .inr ⟨hclock, hover.command hturn c⟩

theorem next (h : run.Due session ∨ Duration.maxDuration < session.time + session.step ∧ run.Over)
    (hreachable : Session.Reachable net session) (hnet : net.Sound)
    (hnext : run.next? order values = some run') : Outcome session run'.note run' := by
  rcases h with hdue | ⟨hclock, hover⟩
  · rcases hdue.next hreachable hnet hnext with ⟨hdue', hpoint, -⟩ | ⟨hpoint, hstate, htick⟩ |
      ⟨hclock, hpoint, hover⟩
    · rw [note_eq_nil hpoint]
      exact ⟨nofun, fun _ => .inl hdue'⟩
    · rw [note, if_pos hpoint, hstate, htick]
      refine ⟨fun number state hreport => ?_, nofun⟩
      cases hreport
      exact ⟨rfl, rfl⟩
    · rw [note_eq_nil hpoint]
      exact ⟨nofun, fun _ => .inr ⟨hclock, hover⟩⟩
  · rw [note_eq_nil (hover.calm.next hnext).2]
    exact ⟨nofun, fun _ => .inr ⟨hclock, hover.next hnext⟩⟩

theorem again (h : run.Due session ∨ Duration.maxDuration < session.time + session.step ∧ run.Over)
    (hturn : run.point = .sleeping ∨ run.point = .finished) :
    Outcome session [.again] run.again := by
  refine ⟨nofun, fun _ => ?_⟩
  rcases h with hdue | ⟨hclock, hover⟩
  · refine .inl ⟨trivial, hdue.state, fun _ => hdue.session_eq ?_, nofun⟩
    rcases hturn with hpoint | hpoint <;> rw [hpoint] <;> nofun
  · exact .inr ⟨hclock, trivial, hover.state⟩

end Outcome

theorem Solo.outcome (h : Solo start log later) (hreachable : Session.Reachable net session)
    (hnet : net.Sound) (hstart : start.Due session) : Outcome session log later := by
  induction h with
  | refl => exact ⟨nofun, fun _ => .inl hstart⟩
  | command _ hturn c ih => exact ih.append fun h => Outcome.command h hturn c _
  | step _ _ hnext ih => exact ih.append fun h => Outcome.next h hreachable hnet hnext
  | again _ hturn ih => exact ih.append fun h => Outcome.again h hturn

/-! ## The end of a run -/

theorem reports_append_note (log : List Note) (run : Run) :
    Note.reports (log ++ run.note) = Note.reports log + if run.point = .reporting then 1 else 0 := by
  unfold note
  split
  · simp [Note.reports]
  · simp [Note.reports]

/-- The ticks of a run are those reported since it began, and one that is about to be settled. A run
that has ended has left the marks as they are at the start. -/
theorem Solo.tallied (h : Solo { session } log run) :
    run.ticks = Note.reports log + (if run.point = .settling then 1 else 0) ∧
      (run.point = .finished → run.session.live.marking = run.session.net.initialMarking) := by
  induction h with
  | refl => exact ⟨rfl, nofun⟩
  | command _ _ c ih =>
    refine ⟨?_, ih.2⟩
    rw [Note.reports, List.foldl_append]
    exact ih.1
  | again _ _ ih =>
    refine ⟨?_, nofun⟩
    rw [Note.reports, List.foldl_append]
    rfl
  | @step log run run' h order values horder hnext ih =>
    rw [reports_append_note]
    rcases next?_eq_some hnext with ⟨single, tick, hpoint, -, rfl⟩ | ⟨single, e, hpoint, -, rfl⟩ |
      ⟨hpoint, rfl⟩ | ⟨control, point, hticking, hstep, hfinished, rfl⟩
    · rw [hpoint] at ih
      cases single with
      | true => exact ⟨congrArg (· + 1) ih.1, nofun⟩
      | false => exact ⟨congrArg (· + 1) ih.1, nofun⟩
    · rw [hpoint] at ih
      exact ⟨ih.1, fun _ => rfl⟩
    · rw [hpoint] at ih
      exact ⟨ih.1, fun _ => rfl⟩
    · refine ⟨?_, fun hpoint => absurd hpoint hfinished⟩
      obtain ⟨hreporting, hsettling⟩ := LoopPoint.next?_of_not_ticking hticking hstep
      show run.ticks = _ + (if point = .reporting then 1 else 0) + if point = .settling then 1 else 0
      rw [if_neg hsettling, if_congr hreporting rfl rfl]
      exact ih.1

/-! ### Results -/

/-- **Step, pause, stop and the end of a run**, for a session that a single thread uses, whatever
commands it gives in its turns:

* after a step that is accepted the first report, unless a stop comes before it, is that of the next
  tick and finds the session paused; until then the state is `stepping`, and the loop by itself is at
  most four steps away from that report, if the clock has room for the tick;
* after a pause that is accepted no tick runs before a start or a step is accepted;
* after a stop no tick runs;
* a run that has ended has handed over as many ticks as it counts, and leaves the session stopped and
  every place with its initial mark. -/
theorem solo_contract {description : NetDescription} (hnet : Net.assemble description = .ok net)
    (hsession : Session.Reachable net session) (h : Solo { session } log run) :
    (run.point.yields = true → run.control.Accepts .step →
      ∀ after later, Solo (run.command .step) after later →
        (∀ number state, after.find? Note.endsStep = some (.report number state) →
          number = run.session.tick + 1 ∧ state = .paused) ∧
        (after.find? Note.endsStep = none →
          run.session.time + run.session.step ≤ Duration.maxDuration →
            later.control.state = .stepping ∧ later.ReportsWithin (run.session.tick + 1) 4)) ∧
    (run.point.yields = true → run.control.Accepts .pause →
      ∀ after later, Solo (run.command .pause) after later →
        (∀ c, c = .start ∨ c = .step → Note.command c true ∉ after) →
          (∀ single, later.point ≠ .ticking single) ∧
            ∀ number state, Note.report number state ∉ after) ∧
    (run.point.yields = true → ∀ after later, Solo (run.command .stop) after later →
      (∀ single, later.point ≠ .ticking single) ∧ ∀ number state, Note.report number state ∉ after) ∧
    (run.point = .finished →
      run.ticks = Note.reports log ∧ run.control.state = .stopped ∧
        ∀ r place, net.places.get? r = some place →
          run.session.live.marking.mark r = place.initialMark) := by
  have hsound := Net.assemble_sound hnet
  have hreachable := h.reachable hsound hsession
  have hagrees := h.agrees trivial
  refine ⟨fun hturn haccepts after later hlater => ?_, fun hturn haccepts after later hlater hlog => ?_,
    fun hturn after later hlater => ?_, fun hpoint => ?_⟩
  · have hpaused := (Control.accepts_iff _ _).mp haccepts
    have hdue : (run.command .step).Due run.session := by
      refine ⟨hagrees.apply hturn .step, ?_, fun _ => rfl, fun hpoint => ?_⟩
      · rw [command, Control.apply, if_pos hpaused]
      · rw [show run.point = .settling from hpoint] at hturn
        cases hturn
    have houtcome := hlater.outcome hreachable hsound hdue
    refine ⟨houtcome.reported, fun hnone hclock => ?_⟩
    rcases houtcome.pending hnone with hdue | ⟨hover, -⟩
    · refine ⟨hdue.state, hdue.reportsWithin hreachable hsound hclock ?_⟩
      cases later.point <;> simp [stepsToReport]
    · exact absurd hover (Nat.not_lt.mpr hclock)
  · have hrunning := (Control.accepts_iff _ _).mp haccepts
    have hpausing : (run.command .pause).control.state = .pausing := by
      rw [command, Control.apply, if_pos hrunning]
    have hcalm : (run.command .pause).Calm :=
      .of_state (hagrees.apply hturn .pause) hpausing (by decide)
    obtain ⟨hlatercalm, hreport⟩ := hlater.calm hcalm hlog
    exact ⟨hlatercalm.not_ticking, hreport⟩
  · have hover := Over.of_stop hagrees hturn
    obtain ⟨hlatercalm, hreport⟩ := hlater.calm hover.calm (hlater.over hover).2
    exact ⟨hlatercalm.not_ticking, hreport⟩
  · obtain ⟨hticks, hmarking⟩ := h.tallied
    rw [hpoint] at hticks hagrees
    refine ⟨hticks, hagrees, fun r place hplace => ?_⟩
    rw [hmarking hpoint, (hreachable.consistent hsound).1]
    exact Net.mark_initialMarking hplace

theorem idle_steps :
    idle.control.Accepts .step ∧ (idle.command .step).control.state = .stepping ∧
      (idle.command .step).ReportsWithin 1 4 := by
  have haccepts : idle.control.Accepts .step := by decide
  obtain ⟨hstep, -⟩ := solo_contract Session.rivals_assembled (.start .classic [] 10000000)
    (Solo.refl : Solo idle [] idle)
  exact ⟨haccepts, (hstep rfl haccepts [] _ .refl).2 rfl (by decide)⟩

end Run

end AutomationNet
