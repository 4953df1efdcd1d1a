import AutomationNet.Proofs.Simulation.Enabling
import Mathlib.Data.List.TakeWhile

/-!
# What a tick chooses

Where transitions are chosen, each can be chosen as soon as it has been visited, after the firings of
the tick. An update overwrites the flag of its own transition and looks at nothing that other updates
change. So the choice can be told without the visits: it falls on the transitions whose guard holds on
the inputs of the tick, whose arcs are enabled when the tick ends, and which have nothing left to wait
when their update comes.

* `Session.found` : the state that the update of a transition finds
* `Session.Ready` : the transitions on which the choice falls
* `Policy.taking`, `LiveNet.visitChoosing` : visits with a choice after each of them
* `LiveNet.visitChoosing_eq` : they leave what the visits leave, with the choice made at their end
* `Session.Yields.isEnabled_iff_ready` : enabled at the end of a tick is what is ready
* `Session.choice_ready` : **a candidate is the first ready transition in the visiting order, and the
  pending transitions are all of them in this order**
-/

namespace AutomationNet

/-! ## Choosing on the way -/

namespace Policy

/-- A policy with some more transitions: a candidate stays, and all that is pending stays before
them. -/
def taking (policy : Policy) (ts : List (Ref Transition)) : Policy :=
  match policy with
  | .classic candidate => .classic (candidate.or ts.head?)
  | .automation => .automation
  | .visObj pending => .visObj (pending ++ ts)

theorem taking_nil (policy : Policy) : policy.taking [] = policy := by
  cases policy with
  | classic candidate => cases candidate <;> rfl
  | automation => rfl
  | visObj pending => exact congrArg Policy.visObj (List.append_nil pending)

theorem taking_taking (policy : Policy) (ts more : List (Ref Transition)) :
    (policy.taking ts).taking more = policy.taking (ts ++ more) := by
  cases policy with
  | classic candidate =>
    simp only [taking, List.head?_append, Option.or_assoc]
  | automation => rfl
  | visObj pending => exact congrArg Policy.visObj (List.append_assoc ..)

end Policy

namespace Session

theorem choose_eq_taking (policy : Policy) (order : List (Ref Transition)) (live : LiveNet) :
    choose policy order live = (Policy.start policy.mode).taking (order.filter live.isEnabled) := by
  cases policy with
  | classic candidate => exact congrArg Policy.classic (List.head?_filter ..).symm
  | automation => rfl
  | visObj pending => rfl

end Session

namespace LiveNet

variable {step : Duration} {inputs : Guard.Snapshot} {order : List (Ref Transition)}

/-- Visits with a choice after each of them: a transition that its update leaves enabled is taken
before the next one is updated. -/
def visitChoosing (step : Duration) (inputs : Guard.Snapshot) (live : LiveNet) (policy : Policy) :
    List (Ref Transition) → LiveNet × Policy
  | [] => (live, policy)
  | t :: order =>
    visitChoosing step inputs (live.update t step inputs)
      (if (live.update t step inputs).isEnabled t then policy.taking [t] else policy) order

/-- Choosing on the way is choosing at the end, as no later update touches a flag. -/
theorem visitChoosing_eq (live : LiveNet) (policy : Policy) (hnodup : order.Nodup) :
    live.visitChoosing step inputs policy order =
      (live.run step inputs (order.map .update),
        policy.taking (order.filter (live.run step inputs (order.map .update)).isEnabled)) := by
  induction order generalizing live policy with
  | nil => exact congrArg (Prod.mk live) policy.taking_nil.symm
  | cons t order ih =>
    obtain ⟨ht, hnodup⟩ := List.nodup_cons.mp hnodup
    have hlater : ∀ move ∈ order.map Move.update, move.transition ≠ t := by
      intro move hmove
      obtain ⟨u, hu, rfl⟩ := List.mem_map.mp hmove
      exact fun hut => ht (hut ▸ hu)
    have hkept : (live.run step inputs ((t :: order).map .update)).isEnabled t =
        (live.update t step inputs).isEnabled t :=
      congrArg Readiness.enabled (ready_run_of_ne hlater)
    rw [visitChoosing, ih _ _ hnodup, List.filter_cons, hkept]
    by_cases hon : (live.update t step inputs).isEnabled t = true
    · rw [if_pos hon, if_pos hon, Policy.taking_taking]
      rfl
    · rw [if_neg hon, if_neg hon]
      rfl

end LiveNet

namespace Session

variable {s : Session} {net : Net} {order : List (Ref Transition)} {values : InputValues}
  {tick : Tick} {t : Ref Transition}

/-! ## Ready transitions -/

/-- The state that the update of a transition finds in a tick. -/
def found (s : Session) (order : List (Ref Transition)) (values : InputValues)
    (t : Ref Transition) : LiveNet :=
  s.live.run s.step (s.inputs values) ((s.plan order).takeWhile fun move => move ≠ .update t)

/-- The guard of a transition holds on the inputs of a tick, its arcs are enabled in the state that
the tick leaves, and nothing was left to wait when its update came. -/
structure Ready (s : Session) (order : List (Ref Transition)) (values : InputValues)
    (ended : LiveNet) (t : Ref Transition) : Prop where
  guard : (s.net.transition t).guard.holds (s.inputs values) = true
  arcs : ended.arcsEnabled t = true
  waited : ((s.found order values t).ready t).remaining = 0

theorem ready_iff {ended : LiveNet} : s.Ready order values ended t ↔
    (s.net.transition t).guard.holds (s.inputs values) = true ∧ ended.arcsEnabled t = true ∧
      ((s.found order values t).ready t).remaining = 0 :=
  ⟨fun h => ⟨h.guard, h.arcs, h.waited⟩, fun ⟨hguard, harcs, hwaited⟩ => ⟨hguard, harcs, hwaited⟩⟩

instance (s : Session) (order : List (Ref Transition)) (values : InputValues) (ended : LiveNet)
    (t : Ref Transition) : Decidable (s.Ready order values ended t) :=
  decidable_of_iff _ ready_iff.symm

/-- The updates that come before leave the timer of a transition to the firings of the tick. -/
theorem ready_found (hvisits : s.policy.visits order = order.map .update) :
    (s.found order values t).ready t =
      (s.live.run s.step (s.inputs values) (s.policy.chosen.map .fireChosen)).ready t := by
  have hfires : ∀ move ∈ s.policy.chosen.map Move.fireChosen,
      decide (move ≠ .update t) = true := by
    intro move hmove
    obtain ⟨u, -, rfl⟩ := List.mem_map.mp hmove
    rfl
  rw [found, plan, hvisits, List.takeWhile_append_of_pos hfires, LiveNet.run_append]
  refine LiveNet.ready_run_of_ne fun move hmove => ?_
  obtain ⟨u, -, rfl⟩ := List.mem_map.mp (List.takeWhile_subset _ hmove)
  have hne := List.mem_takeWhile_imp hmove
  exact fun hut => of_decide_eq_true hne (congrArg Move.update hut)

/-- What is enabled when a tick ends, where every transition is updated after the firings, is what is
ready. -/
theorem Yields.isEnabled_iff_ready (h : s.Yields order values tick)
    (hvisits : s.policy.visits order = order.map .update) (horder : order.Nodup) (ht : t ∈ order)
    (hlt : t.index < s.live.readiness.size) :
    tick.session.live.isEnabled t = true ↔ s.Ready order values tick.session.live t := by
  have hlive := h.live
  rw [plan, hvisits, LiveNet.run_append] at hlive
  rw [ready_iff, ready_found hvisits, LiveNet.isEnabled, hlive, LiveNet.ready_run_update _ horder,
    LiveNet.arcsEnabled_run_update, LiveNet.size_readiness_run, LiveNet.net_run, if_pos ⟨ht, hlt⟩,
    Readiness.enabled_update]
  exact and_left_comm

theorem Yields.policy_eq_taking (h : s.Yields order values tick)
    (hvisits : s.policy.visits order = order.map .update) (horder : order.Nodup)
    (hlt : ∀ t ∈ order, t.index < s.live.readiness.size) :
    tick.session.policy = (Policy.start s.policy.mode).taking
      (order.filter fun t => s.Ready order values tick.session.live t) := by
  have hready : order.filter tick.session.live.isEnabled =
      order.filter fun t => s.Ready order values tick.session.live t :=
    List.filter_congr fun t ht => Bool.eq_iff_iff.mpr
      ((h.isEnabled_iff_ready hvisits horder ht (hlt t ht)).trans decide_eq_true_iff.symm)
  rw [h.policy, choose_eq_taking, hready]

theorem Yields.eq_visitChoosing (h : s.Yields order values tick)
    (hvisits : s.policy.visits order = order.map .update) (horder : order.Nodup) :
    (tick.session.live, tick.session.policy) =
      (s.live.run s.step (s.inputs values) (s.policy.chosen.map .fireChosen)).visitChoosing s.step
        (s.inputs values) (.start s.policy.mode) order := by
  have hlive := h.live
  rw [plan, hvisits, LiveNet.run_append] at hlive
  rw [LiveNet.visitChoosing_eq _ _ horder, ← hlive, ← choose_eq_taking, ← h.policy]

/-! ## Result -/

/-- **What a tick chooses**: as its candidate the first ready transition in the visiting order, or
as its pending ones all that are ready, in that order. It chooses them on the way, each right after
its update. -/
theorem choice_ready {description : NetDescription} (hnet : Net.assemble description = .ok net)
    (h : Reachable net s) (horder : order.Perm net.order) (values : InputValues) :
    (Duration.maxDuration < s.time + s.step → s.runTick order values = .error .clockOverflow) ∧
    (s.time + s.step ≤ Duration.maxDuration → ∃ tick, s.runTick order values = .ok tick ∧
      (s.policy.mode = .classic →
        tick.session.policy =
            .classic (order.find? fun t => s.Ready order values tick.session.live t) ∧
          (tick.session.policy = .classic none ↔
            ∀ t, t.index < net.transitions.size → ¬ s.Ready order values tick.session.live t)) ∧
      (s.policy.mode = .visObj →
        tick.session.policy =
          .visObj (order.filter fun t => s.Ready order values tick.session.live t)) ∧
      (s.policy.mode ≠ .automation →
        (tick.session.live, tick.session.policy) =
          (s.live.run s.step (s.inputs values) (s.policy.chosen.map .fireChosen)).visitChoosing
            s.step (s.inputs values) (.start s.policy.mode) order)) := by
  have hsound := Net.assemble_sound hnet
  obtain ⟨rfl, hs⟩ := h.consistent hsound
  have hnodup : order.Nodup := horder.nodup_iff.mpr hsound.order_nodup
  have hmem : ∀ t, t ∈ order ↔ t.index < s.net.transitions.size := fun t =>
    horder.mem_iff.trans hsound.mem_order
  have hlt : ∀ t ∈ order, t.index < s.live.readiness.size := fun t ht => by
    rw [hs.live.readiness_size]
    exact (hmem t).mp ht
  have hvisits : s.policy.mode ≠ .automation → s.policy.visits order = order.map .update := by
    rcases s.policy.visits_cases with ⟨-, hvisits⟩ | ⟨hmode, -⟩
    · exact fun _ => hvisits order
    · exact fun hother => absurd hmode hother
  refine ⟨runTick_of_overflow hs.chosen_enabled order values, fun hclock => ?_⟩
  obtain ⟨tick, hok, hyields⟩ := runTick_of_room hs.chosen_enabled order values hclock
  refine ⟨tick, hok, ?_, ?_, ?_⟩
  · intro hmode
    have hpolicy := hyields.policy_eq_taking (hvisits (by rw [hmode]; nofun)) hnodup hlt
    rw [hmode, Policy.start, Policy.taking, Option.none_or, List.head?_filter] at hpolicy
    refine ⟨hpolicy, ?_⟩
    rw [hpolicy, Policy.classic.injEq, List.find?_eq_none]
    exact forall_congr' fun t => imp_congr (hmem t) (not_congr decide_eq_true_iff)
  · intro hmode
    have hpolicy := hyields.policy_eq_taking (hvisits (by rw [hmode]; nofun)) hnodup hlt
    rwa [hmode, Policy.start, Policy.taking, List.nil_append] at hpolicy
  · exact fun hmode => hyields.eq_visitChoosing (hvisits hmode) hnodup

/-- The candidate of the rivals is the one that is visited first. When both are pending the first of
them takes all parts, and although its rival was enabled before, nothing is ready any more. -/
theorem rivals_choice :
    (∃ tick, (Session.start rivalsNet .classic [] 10000000).runTick [⟨1⟩, ⟨0⟩] [] = .ok tick ∧
      tick.session.policy = .classic (some ⟨1⟩)) ∧
    ∃ tick, rivalsChosen.runTick [⟨1⟩, ⟨0⟩] [] = .ok tick ∧ tick.session.policy = .visObj [] := by
  obtain ⟨-, hfirst⟩ := choice_ready rivals_assembled (.start .classic [] 10000000)
    (List.Perm.swap _ _ []) []
  obtain ⟨-, hsecond⟩ :=
    choice_ready rivals_assembled rivalsChosen_reachable (List.Perm.swap _ _ []) []
  obtain ⟨first, hfirst_run, hclassic, -⟩ := hfirst (by decide)
  obtain ⟨second, hsecond_run, -, hvisObj, -⟩ := hsecond (by decide)
  have hfirst_live : first.session.live = rivalsChosen.live :=
    eq_of_map_eq_ok hfirst_run (f := fun tick => tick.session.live) (by decide +kernel)
  have hsecond_live : second.session.live =
      ⟨rivalsNet, ⟨[0]⟩, ⟨[⟨0, false, true⟩, ⟨0, false, true⟩]⟩⟩ :=
    eq_of_map_eq_ok hsecond_run (f := fun tick => tick.session.live) (by decide +kernel)
  refine ⟨⟨first, hfirst_run, ?_⟩, second, hsecond_run, ?_⟩
  · rw [(hclassic rfl).1, hfirst_live]
    decide +kernel
  · rw [hvisObj rfl, hsecond_live]
    decide +kernel

end Session

end AutomationNet
