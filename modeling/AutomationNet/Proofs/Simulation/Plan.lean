import AutomationNet.Proofs.Net.Course
import AutomationNet.Simulation.Session

/-!
# What a tick does

The three policies differ in the order of updates and firings and in what they ask before a firing.
A plan is that order, written down; a tick carries its plan out move by move.

* `Move`, `LiveNet.act`, `LiveNet.happenings` : one move, its effect and its entries in the log
* `LiveNet.run`, `LiveNet.log` : many moves
* `Session.plan`, `Session.log` : the plan of a tick, and its log
* `LiveNet.log_eq_append_updated`, `LiveNet.log_eq_append_fired` : what an entry of a log tells
* `Progress.Performs` : a tick has carried out some moves, and none of its firings was refused
* `Session.Yields` : all that a tick that succeeds leaves
* `Session.runTick_cases` : **if all that was chosen is enabled, a tick succeeds unless the clock
  overflows**
-/

namespace AutomationNet

inductive Move where
  | update (t : Ref Transition)
  /-- Fires a transition unless an arc of it is not enabled. -/
  | fireChosen (t : Ref Transition)
  /-- Fires a transition if its last update has enabled it. -/
  | fireEnabled (t : Ref Transition)
  deriving DecidableEq

namespace LiveNet

section Moves
variable (step : Duration) (inputs : Guard.Snapshot)

def act (live : LiveNet) : Move → LiveNet
  | .update t => live.update t step inputs
  | .fireChosen t => if live.arcsEnabled t then live.fired t else live
  | .fireEnabled t => if live.isEnabled t then live.fired t else live

def happenings (live : LiveNet) : Move → Log
  | .update t =>
    [.updated t step (live.arcsEnabled t) ((live.net.transition t).guard.holds inputs)]
  | .fireChosen t => if live.arcsEnabled t then [.fired t] else []
  | .fireEnabled t => if live.isEnabled t then [.fired t] else []

def run (live : LiveNet) (moves : List Move) : LiveNet := moves.foldl (act step inputs) live

/-- What happens in some moves. -/
def log (live : LiveNet) : List Move → Log
  | [] => []
  | move :: moves => live.happenings step inputs move ++ log (live.act step inputs move) moves

variable {step inputs} {live : LiveNet} {moves : List Move}

theorem run_append (live : LiveNet) (moves more : List Move) :
    live.run step inputs (moves ++ more) = (live.run step inputs moves).run step inputs more :=
  List.foldl_append ..

theorem log_append (live : LiveNet) (moves more : List Move) :
    live.log step inputs (moves ++ more) =
      live.log step inputs moves ++ (live.run step inputs moves).log step inputs more := by
  induction moves generalizing live with
  | nil => rfl
  | cons move moves ih =>
    rw [List.cons_append, log, log, ih, List.append_assoc]
    rfl

/-- Of what was chosen, some fires and the rest is passed over, in order. -/
theorem log_fireChosen (step : Duration) (inputs : Guard.Snapshot) (live : LiveNet)
    (pending : List (Ref Transition)) :
    ∃ fires : List (Ref Transition), fires.Sublist pending ∧
      live.log step inputs (pending.map .fireChosen) = fires.map .fired := by
  induction pending generalizing live with
  | nil => exact ⟨[], .refl _, rfl⟩
  | cons t pending ih =>
    obtain ⟨fires, hsub, hlog⟩ := ih (live.act step inputs (.fireChosen t))
    rw [List.map_cons, log, hlog, happenings]
    split
    · exact ⟨t :: fires, hsub.cons_cons t, rfl⟩
    · exact ⟨fires, hsub.cons t, rfl⟩

theorem move_cases (step : Duration) (inputs : Guard.Snapshot) (live : LiveNet) (move : Move) :
    (∃ t, move = .update t ∧ live.act step inputs move = live.update t step inputs ∧
      live.happenings step inputs move =
        [.updated t step (live.arcsEnabled t) ((live.net.transition t).guard.holds inputs)]) ∨
    ∃ t, (move = .fireChosen t ∨ move = .fireEnabled t) ∧
      (live.act step inputs move = live.fired t ∧
          live.happenings step inputs move = [.fired t] ∨
        live.act step inputs move = live ∧ live.happenings step inputs move = []) := by
  cases move with
  | update t => exact .inl ⟨t, rfl, rfl, rfl⟩
  | fireChosen t =>
    refine .inr ⟨t, .inl rfl, ?_⟩
    rw [act, happenings]
    split
    · exact .inl ⟨rfl, rfl⟩
    · exact .inr ⟨rfl, rfl⟩
  | fireEnabled t =>
    refine .inr ⟨t, .inr rfl, ?_⟩
    rw [act, happenings]
    split
    · exact .inl ⟨rfl, rfl⟩
    · exact .inr ⟨rfl, rfl⟩

theorem act_eq_replay (step : Duration) (inputs : Guard.Snapshot) (live : LiveNet) (move : Move) :
    live.act step inputs move = live.replay (live.happenings step inputs move) := by
  rcases move_cases step inputs live move with
    ⟨t, -, hact, hhappens⟩ | ⟨t, -, ⟨hact, hhappens⟩ | ⟨hact, hhappens⟩⟩
  all_goals
    rw [hact, hhappens]
    rfl

theorem run_eq_replay (live : LiveNet) (moves : List Move) :
    live.run step inputs moves = live.replay (live.log step inputs moves) := by
  induction moves generalizing live with
  | nil => rfl
  | cons move moves ih =>
    rw [log, replay, List.foldl_append]
    refine (ih _).trans ?_
    rw [act_eq_replay]
    rfl

theorem net_act (step : Duration) (inputs : Guard.Snapshot) (live : LiveNet) (move : Move) :
    (live.act step inputs move).net = live.net := by
  rcases move_cases step inputs live move with
    ⟨t, -, hact, -⟩ | ⟨t, -, ⟨hact, -⟩ | ⟨hact, -⟩⟩
  · rw [hact, net_update]
  · rw [hact, net_fired]
  · rw [hact]

theorem net_run (step : Duration) (inputs : Guard.Snapshot) (live : LiveNet) (moves : List Move) :
    (live.run step inputs moves).net = live.net := by
  induction moves generalizing live with
  | nil => rfl
  | cons move moves ih => exact (ih _).trans (net_act step inputs live move)

theorem log_eq_append_updated {before after : Log} {t : Ref Transition} {s : Duration}
    {arcsHold guardHolds : Bool}
    (h : live.log step inputs moves = before ++ .updated t s arcsHold guardHolds :: after) :
    arcsHold = (live.replay before).arcsEnabled t ∧
      guardHolds = (live.net.transition t).guard.holds inputs := by
  induction moves generalizing live before with
  | nil => simp [log] at h
  | cons move moves ih =>
    rw [log] at h
    rcases append_eq_append_cons h with ⟨rest, hrest, -⟩ | ⟨mid, rfl, hmid⟩
    · rcases move_cases step inputs live move with
        ⟨u, -, -, hhappens⟩ | ⟨u, -, ⟨-, hhappens⟩ | ⟨-, hhappens⟩⟩
      · rw [hhappens] at hrest
        simp only [List.singleton_eq_append_iff, List.cons.injEq, Happening.updated.injEq,
          reduceCtorEq, and_false, or_false] at hrest
        obtain ⟨rfl, ⟨rfl, -, rfl, rfl⟩, -⟩ := hrest
        exact ⟨rfl, rfl⟩
      · simp [hhappens, List.singleton_eq_append_iff] at hrest
      · simp [hhappens] at hrest
    · obtain ⟨harcs, hguard⟩ := ih hmid
      rw [net_act] at hguard
      rw [act_eq_replay] at harcs
      exact ⟨by rw [harcs, replay, replay, replay, List.foldl_append], hguard⟩

/-- A firing comes from a move that attempts it, after what the moves before it have left. -/
theorem log_eq_append_fired {before after : Log} {t : Ref Transition}
    (h : live.log step inputs moves = before ++ .fired t :: after) :
    ∃ earlier move later, moves = earlier ++ move :: later ∧
      before = live.log step inputs earlier ∧ (move = .fireChosen t ∨ move = .fireEnabled t) := by
  induction moves generalizing live before with
  | nil => simp [log] at h
  | cons move moves ih =>
    rw [log] at h
    rcases append_eq_append_cons h with ⟨rest, hrest, -⟩ | ⟨mid, rfl, hmid⟩
    · -- No move makes more than one thing happen, so that nothing stands before the firing.
      refine ⟨[], move, moves, rfl, ?_⟩
      rcases move_cases step inputs live move with
        ⟨u, -, -, hhappens⟩ | ⟨u, hmove, ⟨-, hhappens⟩ | ⟨-, hhappens⟩⟩
      · simp [hhappens, List.singleton_eq_append_iff] at hrest
      · rw [hhappens] at hrest
        simp only [List.singleton_eq_append_iff, List.cons.injEq, Happening.fired.injEq,
          reduceCtorEq, and_false, or_false] at hrest
        obtain ⟨rfl, rfl, -⟩ := hrest
        exact ⟨rfl, hmove⟩
      · simp [hhappens] at hrest
    · obtain ⟨earlier, found, later, rfl, rfl, hfound⟩ := ih hmid
      exact ⟨move :: earlier, found, later, rfl, rfl, hfound⟩

theorem uniform_log (live : LiveNet) (moves : List Move) :
    (live.log step inputs moves).Uniform step := by
  induction moves generalizing live with
  | nil => exact fun _ _ _ _ hmem => absurd hmem List.not_mem_nil
  | cons move moves ih =>
    refine .append (fun t s a g hmem => ?_) (ih _)
    rcases move_cases step inputs live move with
      ⟨u, -, -, hhappens⟩ | ⟨u, -, ⟨-, hhappens⟩ | ⟨-, hhappens⟩⟩
    · rw [hhappens, List.mem_singleton, Happening.updated.injEq] at hmem
      exact hmem.2.1
    · simp [hhappens] at hmem
    · simp [hhappens] at hmem

theorem overridden_not_mem_log (step : Duration) (inputs : Guard.Snapshot) (live : LiveNet)
    (moves : List Move) (m : Marking) :
    .overridden m ∉ live.log step inputs moves := by
  induction moves generalizing live with
  | nil => exact List.not_mem_nil
  | cons move moves ih =>
    rw [log, List.mem_append, not_or]
    refine ⟨?_, ih _⟩
    rcases move_cases step inputs live move with
      ⟨u, -, -, hhappens⟩ | ⟨u, -, ⟨-, hhappens⟩ | ⟨-, hhappens⟩⟩
    all_goals simp [hhappens]

end Moves

/-- The record of a firing depends on the net alone. -/
theorem firing_congr {live live' : LiveNet} (h : live.net = live'.net) :
    live.firing = live'.firing := by
  funext t
  unfold firing
  rw [h]

end LiveNet

/-! ## Moves carried out -/

namespace Progress

/-- The progress of a tick by some moves, none of whose firings was refused. -/
structure Performs (step : Duration) (inputs : Guard.Snapshot) (p : Progress) (moves : List Move)
    (q : Progress) : Prop where
  live : q.live = p.live.run step inputs moves
  course : p.live.Course (p.live.log step inputs moves) q.live
  fired : q.fired = p.fired ++ (p.live.log step inputs moves).fired.map p.live.firing

variable {step : Duration} {inputs : Guard.Snapshot} {p q r : Progress} {moves more : List Move}
  {t : Ref Transition}

namespace Performs

theorem refl (p : Progress) : Performs step inputs p [] p :=
  ⟨rfl, .refl, (List.append_nil _).symm⟩

theorem trans (h : Performs step inputs p moves q) (h' : Performs step inputs q more r) :
    Performs step inputs p (moves ++ more) r where
  live := by rw [h'.live, h.live, LiveNet.run_append]
  course := by
    rw [LiveNet.log_append, ← h.live]
    exact h.course.trans h'.course
  fired := by
    rw [h'.fired, h.fired, LiveNet.log_append, ← h.live, Log.fired_append, List.map_append,
      List.append_assoc, LiveNet.firing_congr h.course.net_eq]

theorem update (p : Progress) (t : Ref Transition) :
    Performs step inputs p [.update t] (p.update step inputs t) where
  live := rfl
  course := LiveNet.Course.refl.update t step inputs
  fired := (List.append_nil _).symm

theorem fire (move : Move) (hact : p.live.act step inputs move = p.live.fired t)
    (hhappens : p.live.happenings step inputs move = [.fired t]) (hcan : p.live.canFire t = true)
    (warnings : List Warning) :
    Performs step inputs p [move] ⟨p.live.fired t, p.fired ++ [p.live.firing t], warnings⟩ where
  live := hact.symm
  course := by
    rw [LiveNet.log, hhappens]
    exact LiveNet.Course.refl.fire hcan
  fired := by
    rw [LiveNet.log, hhappens]
    rfl

theorem skip (move : Move) (hact : p.live.act step inputs move = p.live)
    (hhappens : p.live.happenings step inputs move = []) (hlive : q.live = p.live)
    (hfired : q.fired = p.fired) : Performs step inputs p [move] q where
  live := hlive.trans hact.symm
  course := by
    rw [LiveNet.log, hhappens, hlive]
    exact .refl
  fired := by
    rw [LiveNet.log, hhappens, hfired]
    exact (List.append_nil _).symm

end Performs

theorem fire_eq (h : p.live.canFire t = true) :
    p.fire t = .ok ⟨p.live.fired t, p.fired ++ [p.live.firing t],
      p.warnings ++ p.live.clampings t⟩ := by
  simp [fire, LiveNet.fire, h]

/-! ### The loops of a tick -/

/-- What was chosen and is still enabled fires if its arcs allow it, and is passed over if not. -/
theorem performs_chosen (h : p.live.isEnabled t = true) {passedOver : Progress}
    (hlive : passedOver.live = p.live) (hfired : passedOver.fired = p.fired) :
    ∃ q, (if p.live.arcsEnabled t then p.fire t else .ok passedOver) = .ok q ∧
      Performs step inputs p [.fireChosen t] q := by
  by_cases harcs : p.live.arcsEnabled t = true
  · have hcan : p.live.canFire t = true := by
      rw [LiveNet.canFire, h, harcs]
      rfl
    exact ⟨_, (if_pos harcs).trans (fire_eq hcan),
      .fire (.fireChosen t) (if_pos harcs) (if_pos harcs) hcan _⟩
  · exact ⟨passedOver, if_neg harcs,
      .skip (.fireChosen t) (if_neg harcs) (if_neg harcs) hlive hfired⟩

theorem performs_candidate {candidate : Option (Ref Transition)}
    (h : ∀ t ∈ candidate, p.live.isEnabled t = true) :
    ∃ q, p.fireCandidate candidate = .ok q ∧
      Performs step inputs p (candidate.toList.map .fireChosen) q := by
  cases candidate with
  | none => exact ⟨p, rfl, .refl p⟩
  | some t => exact performs_chosen (h t rfl) rfl rfl

/-- Firing the pending transitions: an earlier firing leaves a later one enabled, so that only its
arcs are in question. -/
theorem performs_pending {pending : List (Ref Transition)}
    (h : ∀ t ∈ pending, p.live.isEnabled t = true) :
    ∃ q, pending.foldlM firePending p = .ok q ∧
      Performs step inputs p (pending.map .fireChosen) q := by
  induction pending generalizing p with
  | nil => exact ⟨p, rfl, .refl p⟩
  | cons t pending ih =>
    obtain ⟨q, hq, hpq⟩ : ∃ q, p.firePending t = .ok q ∧
        Performs step inputs p [.fireChosen t] q :=
      performs_chosen (h t List.mem_cons_self) rfl rfl
    have hkept : ∀ u ∈ pending, q.live.isEnabled u = true := by
      intro u hu
      have := h u (List.mem_cons_of_mem t hu)
      rw [hpq.live]
      simp only [LiveNet.run, List.foldl_cons, List.foldl_nil, LiveNet.act]
      split
      · rwa [LiveNet.isEnabled_fired]
      · exact this
    obtain ⟨r, hr, hqr⟩ := ih hkept
    refine ⟨r, ?_, hpq.trans hqr⟩
    rw [List.foldlM_cons, hq]
    exact hr

theorem performs_updates (p : Progress) (order : List (Ref Transition)) :
    Performs step inputs p (order.map .update) (order.foldl (Progress.update step inputs) p) := by
  induction order generalizing p with
  | nil => exact .refl p
  | cons t order ih => exact (Performs.update p t).trans (ih _)

/-- Updating and firing in one pass: an update that enables a transition has just found its arcs
enabled. -/
theorem performs_scan (p : Progress) (order : List (Ref Transition)) :
    ∃ q, order.foldlM (updateAndFire step inputs) p = .ok q ∧
      Performs step inputs p (order.flatMap fun t => [.update t, .fireEnabled t]) q := by
  induction order generalizing p with
  | nil => exact ⟨p, rfl, .refl p⟩
  | cons t order ih =>
    obtain ⟨q, hq, hpq⟩ : ∃ q, updateAndFire step inputs p t = .ok q ∧
        Performs step inputs p [.update t, .fireEnabled t] q := by
      unfold updateAndFire
      by_cases hon : (p.update step inputs t).live.isEnabled t = true
      · have hcan : (p.update step inputs t).live.canFire t = true := by
          have harcs : p.live.arcsEnabled t = true := LiveNet.arcsEnabled_of_isEnabled_update hon
          rw [LiveNet.canFire, hon]
          exact harcs
        refine ⟨_, (if_pos hon).trans (fire_eq hcan), (Performs.update p t).trans ?_⟩
        exact .fire (.fireEnabled t) (if_pos hon) (if_pos hon) hcan _
      · refine ⟨_, if_neg hon, (Performs.update p t).trans ?_⟩
        exact .skip (.fireEnabled t) (if_neg hon) (if_neg hon) rfl rfl
    obtain ⟨r, hr, hqr⟩ := ih q
    refine ⟨r, ?_, hpq.trans hqr⟩
    rw [List.foldlM_cons, hq]
    exact hr

end Progress

/-! ## Ticks -/

/-- The visits of a tick: every transition is updated, or each fires as soon as an update enables
it. -/
def Policy.visits (policy : Policy) (order : List (Ref Transition)) : List Move :=
  match policy with
  | .automation => order.flatMap fun t => [.update t, .fireEnabled t]
  | _ => order.map .update

/-- What is chosen waits for the next tick, or nothing is chosen and what is enabled fires at once. -/
theorem Policy.visits_cases (policy : Policy) :
    (policy.mode ≠ .automation ∧ ∀ order, policy.visits order = order.map .update) ∨
      policy.mode = .automation ∧ policy.chosen = [] ∧
        ∀ order, policy.visits order = order.flatMap fun t => [.update t, .fireEnabled t] := by
  cases policy with
  | classic _ => exact .inl ⟨nofun, fun _ => rfl⟩
  | automation => exact .inr ⟨rfl, rfl, fun _ => rfl⟩
  | visObj _ => exact .inl ⟨nofun, fun _ => rfl⟩

namespace Session

/-- The moves of a tick: what was chosen in the tick before fires, then every transition is
visited. -/
def plan (s : Session) (order : List (Ref Transition)) : List Move :=
  s.policy.chosen.map .fireChosen ++ s.policy.visits order

def inputs (s : Session) (values : InputValues) : Guard.Snapshot :=
  (s.history.refresh values).snapshot

def log (s : Session) (order : List (Ref Transition)) (values : InputValues) : Log :=
  s.live.log s.step (s.inputs values) (s.plan order)

/-- All that a tick leaves. -/
structure Yields (s : Session) (order : List (Ref Transition)) (values : InputValues) (tick : Tick) :
    Prop where
  live : tick.session.live = s.live.run s.step (s.inputs values) (s.plan order)
  course : s.live.Course (s.log order values) tick.session.live
  policy : tick.session.policy = choose s.policy order tick.session.live
  history : tick.session.history = s.history.refresh values
  step : tick.session.step = s.step
  number : tick.session.tick = s.tick + 1
  time : tick.session.time = s.time + s.step
  report : tick.report = Session.report tick.session.live s.live.marking
    ((s.log order values).fired.map s.live.firing) (s.tick + 1) (s.time + s.step)

variable {s : Session} {order : List (Ref Transition)} {values : InputValues}

theorem fireChosen_performs (h : ∀ t ∈ s.policy.chosen, s.live.isEnabled t = true)
    (inputs : Guard.Snapshot) :
    ∃ p, s.fireChosen = .ok p ∧
      Progress.Performs s.step inputs { live := s.live } (s.policy.chosen.map .fireChosen) p := by
  unfold fireChosen
  cases hpolicy : s.policy with
  | classic candidate =>
    rw [hpolicy] at h
    exact Progress.performs_candidate fun t ht => h t (Option.mem_toList.mpr ht)
  | automation => exact ⟨_, rfl, .refl _⟩
  | visObj pending =>
    rw [hpolicy] at h
    exact Progress.performs_pending h

theorem visit_performs (s : Session) (order : List (Ref Transition)) (inputs : Guard.Snapshot)
    (p : Progress) :
    ∃ q, s.visit order inputs p = .ok q ∧
      Progress.Performs s.step inputs p (s.policy.visits order) q := by
  unfold visit
  cases s.policy with
  | classic _ => exact ⟨_, rfl, Progress.performs_updates p order⟩
  | automation => exact Progress.performs_scan p order
  | visObj _ => exact ⟨_, rfl, Progress.performs_updates p order⟩

theorem advance_performs (h : ∀ t ∈ s.policy.chosen, s.live.isEnabled t = true)
    (order : List (Ref Transition)) (values : InputValues) :
    ∃ p, s.advance order values = .ok (p, s.history.refresh values) ∧
      Progress.Performs s.step (s.inputs values) { live := s.live } (s.plan order) p := by
  obtain ⟨q, hq, hsq⟩ := fireChosen_performs h (s.inputs values)
  obtain ⟨r, hr, hqr⟩ := s.visit_performs order (s.inputs values)
    (q.warn (s.history.warnings values))
  refine ⟨r, ?_, hsq.trans ⟨hqr.live, hqr.course, hqr.fired⟩⟩
  have hvisit : s.visit order (s.history.refresh values).snapshot
      (q.warn (s.history.warnings values)) = .ok r := hr
  simp only [advance, bind, Except.bind, hq, hvisit]
  rfl

/-- **If all that was chosen is enabled, a tick succeeds unless the clock overflows.** -/
theorem runTick_cases (h : ∀ t ∈ s.policy.chosen, s.live.isEnabled t = true)
    (order : List (Ref Transition)) (values : InputValues) :
    (Duration.maxDuration < s.time + s.step ∧ s.runTick order values = .error .clockOverflow) ∨
      (s.time + s.step ≤ Duration.maxDuration ∧
        ∃ tick, s.runTick order values = .ok tick ∧ s.Yields order values tick) := by
  obtain ⟨p, hadvance, hp⟩ := advance_performs h order values
  have hrun : s.runTick order values =
      if Duration.maxDuration < s.time + s.step then .error .clockOverflow
      else .ok {
        session := {
          live := p.live
          policy := choose s.policy order p.live
          history := s.history.refresh values
          step := s.step
          tick := s.tick + 1
          time := s.time + s.step }
        report := Session.report p.live s.live.marking p.fired (s.tick + 1) (s.time + s.step)
        events := p.fired.map (fun firing => .fire firing.transition) ++ [.tick (s.tick + 1)]
        warnings := p.warnings } := by
    simp only [runTick, hadvance]
    rfl
  rw [hrun]
  by_cases hclock : Duration.maxDuration < s.time + s.step
  · exact .inl ⟨hclock, if_pos hclock⟩
  · refine .inr ⟨Nat.not_lt.mp hclock, _, if_neg hclock, hp.live, hp.course, rfl, rfl, rfl, rfl, rfl, ?_⟩
    rw [show p.fired = (s.log order values).fired.map s.live.firing from
      hp.fired.trans (List.nil_append _)]

theorem runTick_of_overflow (h : ∀ t ∈ s.policy.chosen, s.live.isEnabled t = true)
    (order : List (Ref Transition)) (values : InputValues)
    (hover : Duration.maxDuration < s.time + s.step) :
    s.runTick order values = .error .clockOverflow := by
  rcases runTick_cases h order values with ⟨-, herror⟩ | ⟨hclock, -⟩
  · exact herror
  · exact absurd hover (Nat.not_lt.mpr hclock)

theorem runTick_of_room (h : ∀ t ∈ s.policy.chosen, s.live.isEnabled t = true)
    (order : List (Ref Transition)) (values : InputValues)
    (hclock : s.time + s.step ≤ Duration.maxDuration) :
    ∃ tick, s.runTick order values = .ok tick ∧ s.Yields order values tick := by
  rcases runTick_cases h order values with ⟨hover, -⟩ | ⟨-, hyields⟩
  · exact absurd hover (Nat.not_lt.mpr hclock)
  · exact hyields

end Session

end AutomationNet
