import AutomationNet.Proofs.Net.Firing
import AutomationNet.Proofs.Net.Timer

/-!
# Firing again

A firing starts the delay of its transition over, but it does not look at the flag that lets the
transition fire; only the next update does. Until then nothing but the arcs keeps the transition from
firing again. Once there has been an update, the flag says that the whole delay has passed since.

* `Transition.heldTime` : how long the updates among some events took that held
* `Transition.delay_le_remaining_add_heldTime` : what is left to wait and what has been waited make up
  the delay
* `Transition.delay_le_heldTime_of_enabled` : an update enables a transition after its whole delay only
* `LiveNet.heldTime` : the same time among the operations on a live net
* `LiveNet.refire_waits_iff` : **a second firing has waited exactly if there has been an update, and
  without one it asks for nothing but the arcs**
-/

namespace AutomationNet

namespace Transition

variable {transition : Transition} {r : Readiness} {events : List Event} {event : Event}

/-- How long the updates among some events took that found the arcs enabled and the guard holding. -/
def heldTime (transition : Transition) (events : List Event) : Duration :=
  ((events.filter transition.isHeld).map Event.step).sum

theorem heldTime_append (transition : Transition) (events events' : List Event) :
    transition.heldTime (events ++ events') =
      transition.heldTime events + transition.heldTime events' := by
  rw [heldTime, List.filter_append, List.map_append, List.sum_append, heldTime, heldTime]

theorem heldTime_of_held (h : transition.isHeld event = true) :
    transition.heldTime [event] = event.step := by
  rw [heldTime, List.filter_cons_of_pos h]
  rfl

/-- What an event takes off the wait, it has waited; only a restart takes off more. -/
theorem delay_le_react (hevent : event ≠ .restarted) {waited : Duration}
    (h : transition.delay ≤ r.remaining + waited) :
    transition.delay ≤
      (transition.react r event).remaining + (waited + transition.heldTime [event]) := by
  by_cases hheld : transition.isHeld event = true
  · rw [remaining_react_of_held hheld, heldTime_of_held hheld]
    calc transition.delay
        ≤ r.remaining + waited := h
      _ ≤ r.remaining - event.step + event.step + waited :=
          Nat.add_le_add_right (Nat.sub_le_iff_le_add.mp (Nat.le_refl _)) waited
      _ = r.remaining - event.step + (waited + event.step) := by
          rw [Nat.add_assoc, Nat.add_comm event.step]
  · have hset : transition.setTo (some event) = transition.delay := by
      cases event with
      | updated step arcsHold inputs => rfl
      | fired => rfl
      | restarted => exact absurd rfl hevent
    rw [remaining_react_of_not_held hheld, hset]
    exact Nat.le_add_right _ _

/-- What is left to wait and what has been waited make up the delay. -/
theorem delay_le_remaining_add_heldTime (hstart : transition.delay ≤ r.remaining)
    (hevents : .restarted ∉ events) :
    transition.delay ≤
      (events.foldl transition.react r).remaining + transition.heldTime events := by
  induction events using List.reverseRecOn with
  | nil => exact hstart
  | append_singleton events event ih =>
    rw [List.mem_append, List.mem_singleton, not_or] at hevents
    rw [List.foldl_concat, heldTime_append]
    exact delay_le_react (fun h => hevents.2 h.symm) (ih hevents.1)

/-- With the whole delay to wait, no update enables the transition before it has passed. -/
theorem delay_le_heldTime_of_enabled (hstart : transition.delay ≤ r.remaining)
    (hevents : .restarted ∉ events)
    (hupdated : ∃ step arcsHold inputs, .updated step arcsHold inputs ∈ events)
    (henabled : (events.foldl transition.react r).enabled = true) :
    transition.delay ≤ transition.heldTime events := by
  -- The flag is that of the last update, so the events are followed from their end.
  induction events using List.reverseRecOn with
  | nil =>
    obtain ⟨_, _, _, hmem⟩ := hupdated
    exact absurd hmem List.not_mem_nil
  | append_singleton events event ih =>
    rw [List.mem_append, List.mem_singleton, not_or] at hevents
    rw [List.foldl_concat] at henabled
    rw [heldTime_append]
    cases event with
    | updated step arcsHold inputs =>
      obtain ⟨-, -, hzero⟩ := (Readiness.enabled_update _ _ _ _ _).mp henabled
      have hwaited := delay_le_remaining_add_heldTime hstart hevents.1
      rw [hzero, Nat.zero_add] at hwaited
      exact Nat.le_add_right_of_le hwaited
    | fired =>
      obtain ⟨step, arcsHold, inputs, hmem⟩ := hupdated
      have hbefore : .updated step arcsHold inputs ∈ events := by simpa using hmem
      exact Nat.le_add_right_of_le (ih hevents.1 ⟨step, arcsHold, inputs, hbefore⟩ henabled)
    | restarted => exact absurd rfl hevents.2

theorem foldl_react_of_no_update (hevents : .restarted ∉ events)
    (hnone : ∀ step arcsHold inputs, .updated step arcsHold inputs ∉ events) :
    (events.foldl transition.react r).enabled = r.enabled ∧ transition.heldTime events = 0 := by
  induction events generalizing r with
  | nil => exact ⟨rfl, rfl⟩
  | cons event events ih =>
    have hrest := ih (r := transition.react r event) (fun h => hevents (List.mem_cons_of_mem _ h))
      fun step arcsHold inputs h => hnone step arcsHold inputs (List.mem_cons_of_mem _ h)
    cases event with
    | updated step arcsHold inputs => exact absurd List.mem_cons_self (hnone step arcsHold inputs)
    | fired => exact hrest
    | restarted => exact absurd List.mem_cons_self hevents

end Transition

namespace LiveNet

variable {net : Net} {live : LiveNet} {t : Ref Transition} {operations : List Operation}

/-- How long the updates among some operations took that found the transition's arcs and guard
holding. -/
def heldTime (live : LiveNet) (t : Ref Transition) (operations : List Operation) : Duration :=
  (live.net.transition t).heldTime (live.eventsOf t operations)

theorem exists_updated_mem_eventsOf :
    (∃ step arcsHold inputs, .updated step arcsHold inputs ∈ live.eventsOf t operations) ↔
      ∃ step inputs, .update t step inputs ∈ operations := by
  induction operations generalizing live with
  | nil => simp [eventsOf]
  | cons operation operations ih =>
    have hfirst : (∃ step arcsHold inputs, .updated step arcsHold inputs ∈ live.eventOf t operation) ↔
        ∃ step inputs, .update t step inputs = operation := by
      cases operation with
      | update u step inputs =>
        by_cases hu : u = t
        · simp [eventOf, hu, eq_comm]
        · simp [eventOf, hu, Ne.symm hu]
      | fire u => by_cases hu : u = t ∧ live.canFire t = true <;> simp [eventOf, hu]
      | setMark place mark => simp [eventOf]
      | restartPlaces => simp [eventOf]
      | restartTransitions => simp [eventOf]
    simp only [eventsOf, List.mem_append, List.mem_cons, exists_or, hfirst, ih]

theorem restarted_mem_eventsOf :
    .restarted ∈ live.eventsOf t operations ↔ .restartTransitions ∈ operations := by
  induction operations generalizing live with
  | nil => simp [eventsOf]
  | cons operation operations ih =>
    have hfirst : .restarted ∈ live.eventOf t operation ↔ .restartTransitions = operation := by
      cases operation with
      | update u step inputs => by_cases hu : u = t <;> simp [eventOf, hu]
      | fire u => by_cases hu : u = t ∧ live.canFire t = true <;> simp [eventOf, hu]
      | setMark place mark => simp [eventOf]
      | restartPlaces => simp [eventOf]
      | restartTransitions => simp [eventOf]
    rw [eventsOf, List.mem_append, hfirst, ih, List.mem_cons]

theorem exists_fire_iff :
    (∃ next firing, live.fire t = .ok (next, firing)) ↔ live.canFire t = true := by
  constructor
  · rintro ⟨next, firing, hok⟩
    exact (fire_eq_ok.mp hok).1
  · exact fun hcan => ⟨_, _, fire_eq_ok.mpr ⟨hcan, rfl, rfl⟩⟩

/-- A transition that has fired is enabled as before, with its whole delay to wait. -/
theorem ready_fired_of_canFire (hcan : live.canFire t = true) :
    ((live.fired t).ready t).enabled = true ∧
      ((live.fired t).ready t).remaining = (live.net.transition t).delay := by
  have henabled : live.isEnabled t = true := (Bool.and_eq_true_iff.mp hcan).1
  rw [ready_fired, if_pos ⟨rfl, lt_of_isEnabled henabled⟩]
  exact ⟨henabled, rfl⟩

theorem operateAll_fire {before : List Operation} (hcan : (live.operateAll before).canFire t = true)
    (between : List Operation) :
    live.operateAll (before ++ .fire t :: between) =
      ((live.operateAll before).fired t).operateAll between := by
  rw [operateAll, List.foldl_append, List.foldl_cons]
  exact congrArg (operateAll · between) ((operate_fire _ t).trans (if_pos hcan))

namespace Valid

theorem isEnabled_of_no_update (h : live.Valid) (hnet : live.net.Sound)
    (hcan : live.canFire t = true) (hrestart : Operation.restartTransitions ∉ operations)
    (hnone : ∀ step inputs, .update t step inputs ∉ operations) :
    ((live.fired t).operateAll operations).isEnabled t = true ∧
      (live.fired t).heldTime t operations = 0 := by
  have henabled := (Bool.and_eq_true_iff.mp hcan).1
  have ht : t.index < live.net.transitions.size := h.readiness_size ▸ lt_of_isEnabled henabled
  have hevents : .restarted ∉ (live.fired t).eventsOf t operations :=
    fun hmem => hrestart (restarted_mem_eventsOf.mp hmem)
  have hquiet : ∀ step arcsHold inputs,
      .updated step arcsHold inputs ∉ (live.fired t).eventsOf t operations := by
    intro step arcsHold inputs hmem
    obtain ⟨step', inputs', hupdate⟩ := exists_updated_mem_eventsOf.mp ⟨step, arcsHold, inputs, hmem⟩
    exact hnone step' inputs' hupdate
  obtain ⟨hflag, htime⟩ := Transition.foldl_react_of_no_update hevents hquiet
  rw [isEnabled, (h.fired t).ready_operateAll hnet ht operations]
  exact ⟨hflag.trans (ready_fired_of_canFire hcan).1, htime⟩

/-- A transition that has fired and has been updated is enabled after its whole delay only. -/
theorem delay_le_heldTime (h : live.Valid) (hnet : live.net.Sound) (hcan : live.canFire t = true)
    (hrestart : Operation.restartTransitions ∉ operations)
    (hupdated : ∃ step inputs, .update t step inputs ∈ operations)
    (henabled : ((live.fired t).operateAll operations).isEnabled t = true) :
    (live.net.transition t).delay ≤ (live.fired t).heldTime t operations := by
  have ht : t.index < live.net.transitions.size :=
    h.readiness_size ▸ lt_of_isEnabled (Bool.and_eq_true_iff.mp hcan).1
  rw [isEnabled, (h.fired t).ready_operateAll hnet ht operations] at henabled
  exact Transition.delay_le_heldTime_of_enabled (ready_fired_of_canFire hcan).2.ge
    (fun hmem => hrestart (restarted_mem_eventsOf.mp hmem))
    (exists_updated_mem_eventsOf.mpr hupdated) henabled

end Valid

/-! ### Stamping twice -/

/-- A stamp takes a part a second. -/
def stamp : NetDescription where
  places := [⟨"P1", "parts", .int, "2", []⟩]
  transitions := [{ id := "T1", name := "press", delay := "1" }]
  arcs := [⟨"A1", "P1", "T1", .input, "1", []⟩]

def stampNet : Net where
  places := ⟨[⟨"P1", "parts", .int, 2⟩]⟩
  transitions := ⟨[⟨"T1", "press", {}, 1000000000, .zero⟩]⟩
  arcs := ⟨[⟨"A1", ⟨0⟩, ⟨0⟩, .input, 1⟩]⟩
  attachments := ⟨[{ inputs := [⟨0⟩] }]⟩
  placeKeys := ⟨[("P1", ⟨0⟩)]⟩
  transitionKeys := ⟨[("T1", ⟨0⟩)]⟩
  order := [⟨0⟩]

theorem stamp_assembled : Net.assemble stamp = .ok stampNet :=
  Net.assemble_eq_ok (by decide +kernel) (by decide +kernel)

/-- The updates of a second, after which the stamp may press. -/
def stampUpdates : List Operation := [.update ⟨0⟩ 1000000000 ⟨[], []⟩, .update ⟨0⟩ 0 ⟨[], []⟩]

/-- Not every second firing has waited: the stamp presses both parts at once. -/
theorem stamp_pressed_twice :
    ¬ ∀ (description : NetDescription) (net : Net), Net.assemble description = .ok net →
      ∀ (before between : List Operation) (t : Ref Transition),
        (∀ operation ∈ before ++ between,
          operation ≠ .restartPlaces ∧ operation ≠ .restartTransitions) →
        (net.transition t).delay ≠ 0 →
        (∃ next firing, ((ofNet net).operateAll before).fire t = .ok (next, firing)) →
        (∃ next firing,
          ((ofNet net).operateAll (before ++ .fire t :: between)).fire t = .ok (next, firing)) →
        (net.transition t).delay ≤
          ((ofNet net).operateAll (before ++ [.fire t])).heldTime t between := by
  intro h
  have hwaited := h stamp stampNet stamp_assembled stampUpdates [] ⟨0⟩ (by simp [stampUpdates])
    (by decide) (exists_fire_iff.mpr (by decide +kernel)) (exists_fire_iff.mpr (by decide +kernel))
  exact absurd hwaited (by decide +kernel)

/-! ### Result -/

/-- **A second firing has waited exactly if there has been an update.** Between two firings of a
transition with a delay, its updates that held have taken at least that delay if and only if it has
been updated at all. Otherwise the second firing asks for nothing but the arcs. -/
theorem refire_waits_iff {description : NetDescription} (hnet : Net.assemble description = .ok net)
    (before between : List Operation) (t : Ref Transition)
    (hrestart : Operation.restartTransitions ∉ between)
    (hfirst : ∃ next firing, ((ofNet net).operateAll before).fire t = .ok (next, firing)) :
    (∀ next firing,
      ((ofNet net).operateAll (before ++ .fire t :: between)).fire t = .ok (next, firing) →
        ((net.transition t).delay ≤
            ((ofNet net).operateAll (before ++ [.fire t])).heldTime t between ↔
          (net.transition t).delay = 0 ∨ ∃ step inputs, .update t step inputs ∈ between)) ∧
    ((∀ step inputs, .update t step inputs ∉ between) →
      ((∃ next firing,
        ((ofNet net).operateAll (before ++ .fire t :: between)).fire t = .ok (next, firing)) ↔
          ∀ arc ∈ net.arcs.toList, arc.transition = t →
            ((ofNet net).operateAll (before ++ .fire t :: between)).arcEnabled arc = true)) := by
  have hsound := Net.assemble_sound hnet
  have heq : ((ofNet net).operateAll before).net = net := net_operateAll _ before
  have hvalid := (Valid.ofNet hsound).operateAll hsound before
  have hcan := exists_fire_iff.mp hfirst
  have hfired : (ofNet net).operateAll (before ++ [.fire t]) =
      ((ofNet net).operateAll before).fired t := operateAll_fire hcan []
  rw [hfired, operateAll_fire hcan between]
  generalize (ofNet net).operateAll before = live at heq hvalid hcan
  subst heq
  have hagain : ((live.fired t).operateAll between).canFire t = true ↔
      ((live.fired t).operateAll between).isEnabled t = true ∧
        ∀ arc ∈ live.net.arcs.toList, arc.transition = t →
          ((live.fired t).operateAll between).arcEnabled arc = true := by
    have hsame : ((live.fired t).operateAll between).net = live.net := net_operateAll _ between
    rw [canFire_iff (hsame ▸ hsound), hsame]
  refine ⟨fun next firing hok => ⟨fun hwaited => ?_, fun hcase => ?_⟩, fun hnone => ?_⟩
  · by_cases hupdated : ∃ step inputs, .update t step inputs ∈ between
    · exact .inr hupdated
    · have hnone := (hvalid.isEnabled_of_no_update hsound hcan hrestart fun step inputs hmem =>
        hupdated ⟨step, inputs, hmem⟩).2
      exact .inl (Nat.le_zero.mp (hnone ▸ hwaited))
  · rcases hcase with hzero | hupdated
    · rw [hzero]
      exact Nat.zero_le _
    · have henabled := (hagain.mp (fire_eq_ok.mp hok).1).1
      exact hvalid.delay_le_heldTime hsound hcan hrestart hupdated henabled
  · rw [exists_fire_iff, hagain]
    exact and_iff_right (hvalid.isEnabled_of_no_update hsound hcan hrestart hnone).1

/-- After a second of updates the stamp presses the other part, and so it does without any. -/
theorem stamp_waits :
    1000000000 ≤
        ((ofNet stampNet).operateAll (stampUpdates ++ [.fire ⟨0⟩])).heldTime ⟨0⟩ stampUpdates ∧
      ∃ next firing,
        ((ofNet stampNet).operateAll (stampUpdates ++ [.fire ⟨0⟩])).fire ⟨0⟩ =
          .ok (next, firing) := by
  have hfirst := exists_fire_iff.mpr
    (show ((ofNet stampNet).operateAll stampUpdates).canFire ⟨0⟩ = true by decide +kernel)
  have hsecond := exists_fire_iff.mpr
    (show ((ofNet stampNet).operateAll (stampUpdates ++ .fire ⟨0⟩ :: stampUpdates)).canFire ⟨0⟩ =
      true by decide +kernel)
  obtain ⟨hwaits, -⟩ := refire_waits_iff stamp_assembled stampUpdates stampUpdates ⟨0⟩
    (by simp [stampUpdates]) hfirst
  obtain ⟨-, hquiet⟩ := refire_waits_iff stamp_assembled stampUpdates [] ⟨0⟩
    List.not_mem_nil hfirst
  obtain ⟨next, firing, hok⟩ := hsecond
  refine ⟨(hwaits next firing hok).mpr (.inr ⟨1000000000, ⟨[], []⟩, List.mem_cons_self⟩),
    (hquiet fun _ _ => List.not_mem_nil).mpr ?_⟩
  decide +kernel

end LiveNet

end AutomationNet
