import AutomationNet.Proofs.Simulation.Snapshot

/-!
# What a transition reported as enabled may do

A report is read after the last move of a tick, while the flag of a transition is as old as its last
update. Where all updates come after the firings, an enabled transition may fire. Where each
transition fires as soon as its update enables it, an enabled transition has just fired: its guard
holds, but its delay is before it again, and it may have taken the tokens it rests on.

* `LiveNet.Poised` : arcs and guard hold, and nothing is left to wait
* `Session.Spent` : a transition that has fired since its last update
* `LiveNet.fired_of_isEnabled` : updated and fired at once, only what fires stays enabled
* `Session.mem_transitions_report` : the states that a report lists
* `Session.report_enabled` : **what is listed as enabled is poised, or under `automation` spent**
-/

namespace AutomationNet

def Move.transition : Move → Ref Transition
  | .update t => t
  | .fireChosen t => t
  | .fireEnabled t => t

theorem Readiness.state_eq_enabled {delay : Duration} {r : Readiness} :
    r.state delay = .enabled ↔ r.enabled = true := by
  unfold state
  by_cases hon : r.enabled = true
  · simp [hon]
  · simp only [if_neg hon, iff_false_right hon]
    split <;> nofun

namespace LiveNet

variable {step : Duration} {inputs : Guard.Snapshot} {live : LiveNet} {t : Ref Transition}
  {earlier later : List Move}

/-- The arcs of a transition are enabled, its guard holds, and nothing is left to wait. -/
structure Poised (live : LiveNet) (inputs : Guard.Snapshot) (t : Ref Transition) : Prop where
  arcs : live.arcsEnabled t = true
  guard : (live.net.transition t).guard.holds inputs = true
  waited : (live.ready t).remaining = 0

theorem size_readiness_run (step : Duration) (inputs : Guard.Snapshot) (live : LiveNet)
    (moves : List Move) :
    (live.run step inputs moves).readiness.size = live.readiness.size := by
  induction moves generalizing live with
  | nil => rfl
  | cons move moves ih =>
    refine (ih _).trans ?_
    rcases move_cases step inputs live move with
      ⟨u, -, hact, -⟩ | ⟨u, -, ⟨hact, -⟩ | ⟨hact, -⟩⟩
    · rw [hact, update, Table.size_modify]
    · rw [hact, fired, Table.size_modify]
    · rw [hact]

/-- Moves about other transitions leave the readiness of a transition as it is. -/
theorem ready_run_of_ne {moves : List Move} (h : ∀ move ∈ moves, move.transition ≠ t) :
    (live.run step inputs moves).ready t = live.ready t := by
  induction moves generalizing live with
  | nil => rfl
  | cons move moves ih =>
    refine (ih fun other hother => h other (List.mem_cons_of_mem _ hother)).trans ?_
    have hne := h move List.mem_cons_self
    rcases move_cases step inputs live move with ⟨u, rfl, hact, -⟩ | ⟨u, hmove, hact⟩
    · rw [hact, ready_update, if_neg fun hut : u = t ∧ _ => hne hut.1]
    · rcases hact with ⟨hact, -⟩ | ⟨hact, -⟩
      · have hu : u ≠ t := by rcases hmove with rfl | rfl <;> exact hne
        rw [hact, ready_fired, if_neg fun hut : u = t ∧ _ => hu hut.1]
      · rw [hact]

/-- A transition that is updated and then fired if the update enables it is enabled afterwards only if
it has fired. Its delay is then before it again. -/
theorem fired_of_isEnabled (hlater : ∀ move ∈ later, move.transition ≠ t)
    (hon : (live.run step inputs (earlier ++ .update t :: .fireEnabled t :: later)).isEnabled t =
      true) :
    (live.net.transition t).guard.holds inputs = true ∧
    ((live.run step inputs (earlier ++ .update t :: .fireEnabled t :: later)).ready t).remaining =
      (live.net.transition t).delay ∧
    ∃ before after,
      live.log step inputs (earlier ++ .update t :: .fireEnabled t :: later) =
        before ++ .fired t :: after := by
  have hlt := lt_of_isEnabled hon
  rw [size_readiness_run] at hlt
  -- The state before the update, the one after it, and the one after the firing.
  have hsize := size_readiness_run step inputs live earlier
  have hnet := net_run step inputs live earlier
  rw [isEnabled, run_append] at hon
  rw [run_append, log_append]
  generalize live.run step inputs earlier = found at hon hsize hnet ⊢
  have hrun : found.run step inputs (.update t :: .fireEnabled t :: later) =
      ((found.update t step inputs).act step inputs (.fireEnabled t)).run step inputs later := rfl
  rw [hrun, ready_run_of_ne hlater] at hon
  rw [hrun, ready_run_of_ne hlater]
  have hupdated : (found.update t step inputs).isEnabled t = true := by
    by_contra hoff
    rw [act, if_neg hoff] at hon
    exact hoff hon
  have hguard := hupdated
  rw [isEnabled, ready_update, if_pos ⟨rfl, hsize ▸ hlt⟩, Readiness.enabled_update, hnet] at hguard
  refine ⟨hguard.2.1, ?_, ?_⟩
  · have hlt' : t.index < (found.update t step inputs).readiness.size := by
      rwa [update, Table.size_modify, hsize]
    rw [act, if_pos hupdated, ready_fired, if_pos ⟨rfl, hlt'⟩, net_update, hnet]
    rfl
  · refine ⟨live.log step inputs earlier ++ found.happenings step inputs (.update t),
      ((found.update t step inputs).fired t).log step inputs later, ?_⟩
    have hfires : (found.update t step inputs).happenings step inputs (.fireEnabled t) =
        [.fired t] := if_pos hupdated
    have hacts : (found.update t step inputs).act step inputs (.fireEnabled t) =
        (found.update t step inputs).fired t := if_pos hupdated
    rw [log, log, show found.act step inputs (.update t) = found.update t step inputs from rfl,
      hfires, hacts]
    simp

end LiveNet

namespace Session

variable {s : Session} {net : Net} {order : List (Ref Transition)} {values : InputValues}
  {tick : Tick} {t : Ref Transition}

/-- A transition that has fired in a tick since its last update. Its flag says nothing of the state
after that: its delay is before it again, and its arcs may be disabled. -/
structure Spent (s : Session) (order : List (Ref Transition)) (values : InputValues) (tick : Tick)
    (t : Ref Transition) : Prop where
  fired : (s.net.transition t).id ∈ tick.report.firedIds
  guard : (s.net.transition t).guard.holds (s.inputs values) = true
  remaining : (tick.session.live.ready t).remaining = (s.net.transition t).delay
  moved : ∃ before after, s.log order values = before ++ .fired t :: after ∧
    ∀ arc ∈ s.net.attached t, tick.session.live.arcEnabled arc = false →
      ∃ u ∈ t :: Log.fired after, ∃ mover ∈ s.net.movers u, mover.place = arc.place

theorem mem_transitions_report {live : LiveNet} {earlier : Marking} {fired : List Firing}
    {number : Nat} {time : Duration} {id : ElementId} {state : TransitionState} :
    (id, state) ∈ (report live earlier fired number time).transitions ↔
      ∃ t, t.index < live.net.transitions.size ∧ (live.net.transition t).id = id ∧
        live.state t = state := by
  simp only [report, List.mem_map, Prod.exists, Prod.mk.injEq, Table.mem_enumerate]
  constructor
  · rintro ⟨t, transition, hget, rfl, rfl⟩
    refine ⟨t, (List.getElem?_eq_some_iff.mp hget).1, ?_, rfl⟩
    rw [Net.transition_of_get? hget]
  · rintro ⟨t, ht, rfl, rfl⟩
    exact ⟨t, _, Net.get?_transition ht, rfl, rfl⟩

/-- In its turn a firing had all its arcs enabled. An arc that is disabled when the tick ends is at a
place where that firing or a later one has moved tokens. -/
theorem Yields.exists_mover (h : s.Yields order values tick) {before after : Log}
    (hlog : s.log order values = before ++ .fired t :: after) {arc : Arc}
    (harc : arc ∈ s.net.attached t) (hoff : tick.session.live.arcEnabled arc = false) :
    ∃ u ∈ t :: Log.fired after, ∃ mover ∈ s.net.movers u, mover.place = arc.place := by
  obtain ⟨hcourse, hcan⟩ := h.course.canFire_of_fired hlog
  rw [LiveNet.canFire, Bool.and_eq_true] at hcan
  have hend : tick.session.live = (s.live.replay before).replay (.fired t :: after) := by
    rw [h.course.eq_replay, hlog, LiveNet.replay, LiveNet.replay, LiveNet.replay, List.foldl_append]
  have hnet : tick.session.live.net = (s.live.replay before).net :=
    h.course.net_eq.trans hcourse.net_eq.symm
  have hdiffer := LiveNet.mark_ne_of_arcsEnabled hnet (h.course.net_eq ▸ harc) hoff hcan.2
  rw [hend] at hdiffer
  have hnone : ∀ m, Happening.overridden m ∉ Happening.fired t :: after := by
    intro m hmem
    have hmem' : .overridden m ∈ s.log order values := by
      rw [hlog]
      exact List.mem_append_right _ hmem
    exact s.live.overridden_not_mem_log s.step _ _ m hmem'
  obtain ⟨u, hu, mover, hmover, hplace⟩ := LiveNet.exists_mover hnone hdiffer
  rw [hcourse.net_eq] at hmover
  exact ⟨u, hu, mover, hmover, hplace⟩

/-- Where enabled transitions fire at once, what is enabled at the end of a tick has fired in it. -/
theorem Yields.spent_of_isEnabled (h : s.Yields order values tick) (hs : s.Consistent)
    (hids : s.net.ids.Nodup) (hmode : s.policy.mode = .automation) (horder : order.Nodup)
    (ht : t ∈ order) (hlt : t.index < s.net.transitions.size)
    (hon : tick.session.live.isEnabled t = true) : s.Spent order values tick t := by
  rcases s.policy.visits_cases with ⟨hother, -⟩ | ⟨-, hchosen, hvisits⟩
  · exact absurd hmode hother
  obtain ⟨pre, post, rfl⟩ := List.append_of_mem ht
  have hpost : t ∉ post := (List.nodup_cons.mp (List.nodup_append.mp horder).2.1).1
  have hplan : s.plan (pre ++ t :: post) =
      (pre.flatMap fun t => [.update t, .fireEnabled t]) ++ .update t :: .fireEnabled t ::
        post.flatMap fun t => [.update t, .fireEnabled t] := by
    rw [plan, hchosen, hvisits]
    simp
  have hlater : ∀ move ∈ post.flatMap fun t => [Move.update t, .fireEnabled t],
      move.transition ≠ t := by
    intro move hmove
    obtain ⟨u, hu, hmem⟩ := List.mem_flatMap.mp hmove
    have hut : u ≠ t := fun hut => hpost (hut ▸ hu)
    simp only [List.mem_cons, List.not_mem_nil, or_false] at hmem
    rcases hmem with rfl | rfl <;> exact hut
  rw [h.live, hplan] at hon
  obtain ⟨hguard, hremaining, before, after, hlog⟩ := LiveNet.fired_of_isEnabled hlater hon
  rw [← hplan] at hlog hremaining
  rw [← h.live] at hremaining
  refine ⟨?_, hguard, hremaining, before, after, hlog, fun arc => h.exists_mover hlog⟩
  refine (hs.mem_firedIds hids h hlt).mpr ?_
  rw [log, hlog]
  simp [Log.fired]

/-! ### A firing that uses up what it rests on -/

/-- The first of the rivals has taken both parts, and its flag is still set. -/
def rivalsSpent : Session where
  live := ⟨rivalsNet, ⟨[0]⟩, ⟨[⟨0, true, true⟩, ⟨0, false, true⟩]⟩⟩
  policy := .automation
  history := []
  step := 10000000
  tick := 1
  time := 10000000

def rivalsScan : Tick where
  session := rivalsSpent
  report := report rivalsSpent.live ⟨[2]⟩ [rivalsSpent.live.firing ⟨0⟩] 1 10000000
  events := [.fire "T1", .tick 1]
  warnings := []

theorem rivals_scan :
    (Session.start rivalsNet .automation [] 10000000).runTick rivalsNet.order [] =
      .ok rivalsScan := by
  decide +kernel

/-- What is listed as enabled is not always poised. -/
theorem rivals_not_poised :
    ¬ ∀ (description : NetDescription) (net : Net) (s : Session) (order : List (Ref Transition))
        (values : InputValues) (tick : Tick),
      Net.assemble description = .ok net → Reachable net s → order.Perm net.order →
      s.runTick order values = .ok tick →
      ∀ t, t.index < net.transitions.size →
        ((net.transition t).id, TransitionState.enabled) ∈ tick.report.transitions →
        tick.session.live.Poised tick.session.history.snapshot t := by
  intro h
  have hposed := h rivals rivalsNet _ _ _ _ rivals_assembled (.start .automation [] 10000000)
    (.refl _) rivals_scan ⟨0⟩ (by decide) (by decide +kernel)
  have harcs : rivalsSpent.live.arcsEnabled ⟨0⟩ = false := by decide +kernel
  exact Bool.false_ne_true (harcs.symm.trans hposed.arcs)

/-! ### Result -/

/-- **What a report lists as enabled** has a guard that holds in the inputs of the tick. Under a
policy that chooses, its arcs are enabled as well and nothing is left to wait. Under `automation` it
has fired since: its whole delay is to be waited again, and an arc is disabled only where that
firing or a later one has moved tokens. -/
theorem report_enabled {description : NetDescription}
    (hnet : Net.assemble description = .ok net) (h : Reachable net s)
    (horder : order.Perm net.order) (hrun : s.runTick order values = .ok tick) {id : ElementId}
    (hlisted : (id, TransitionState.enabled) ∈ tick.report.transitions) :
    ∃ t, net.transitionRef? id = some t ∧
      (net.transition t).guard.holds tick.session.history.snapshot = true ∧
      (s.policy.mode ≠ .automation →
        tick.session.live.Poised tick.session.history.snapshot t) ∧
      (s.policy.mode = .automation → s.Spent order values tick t) ∧
      (tick.session.live.Poised tick.session.history.snapshot t ↔ s.policy.mode ≠ .automation ∨
        (net.transition t).delay = 0 ∧ tick.session.live.arcsEnabled t = true) := by
  have hsound := Net.assemble_sound hnet
  obtain ⟨rfl, hs⟩ := h.consistent hsound
  have hyields := hs.yields hrun
  have hnet' : tick.session.live.net = s.net := hyields.course.net_eq
  have hinputs : tick.session.history.snapshot = s.inputs values := by rw [hyields.history, inputs]
  have hnodup : order.Nodup := horder.nodup_iff.mpr hsound.order_nodup
  rw [hyields.report, mem_transitions_report, hnet'] at hlisted
  obtain ⟨t, hlt, rfl, hstate⟩ := hlisted
  have hon : tick.session.live.isEnabled t = true := Readiness.state_eq_enabled.mp hstate
  have hmem : t ∈ order := horder.mem_iff.mpr (hsound.mem_order.mpr hlt)
  have hposed : s.policy.mode ≠ .automation →
      tick.session.live.Poised tick.session.history.snapshot t := by
    intro hmode
    rcases s.policy.visits_cases with ⟨-, hvisits⟩ | ⟨hscan, -⟩
    · obtain ⟨harcs, hguard, hwaited⟩ := hyields.of_isEnabled (hvisits order) hnodup hmem hon
      exact ⟨harcs, by rwa [hnet', hinputs], hwaited⟩
    · exact absurd hscan hmode
  have hspent : s.policy.mode = .automation → s.Spent order values tick t := fun hmode =>
    hyields.spent_of_isEnabled hs (Net.assemble_ids_nodup hnet) hmode hnodup hmem hlt hon
  have hguard : (s.net.transition t).guard.holds tick.session.history.snapshot = true := by
    by_cases hmode : s.policy.mode = .automation
    · rw [hinputs]
      exact (hspent hmode).guard
    · rw [← hnet']
      exact (hposed hmode).guard
  refine ⟨t, ?_, hguard, hposed, hspent, ?_⟩
  · exact (hsound.transitionKeys_inverts _ _).mpr ⟨_, Net.get?_transition hlt, rfl⟩
  · by_cases hmode : s.policy.mode = .automation
    · have hremaining := (hspent hmode).remaining
      constructor
      · exact fun hposed => .inr ⟨hremaining ▸ hposed.waited, hposed.arcs⟩
      · rintro (hother | ⟨hdelay, harcs⟩)
        · exact absurd hmode hother
        · exact ⟨harcs, by rwa [hnet'], hremaining.trans hdelay⟩
    · exact ⟨fun _ => .inl hmode, fun _ => hposed hmode⟩

theorem rivals_spent :
    rivalsSpent.live.arcsEnabled ⟨0⟩ = false ∧
      (Session.start rivalsNet .automation [] 10000000).Spent rivalsNet.order [] rivalsScan ⟨0⟩ := by
  have hlisted : ("T1", TransitionState.enabled) ∈ rivalsScan.report.transitions := by
    decide +kernel
  obtain ⟨t, hfind, -, -, hspent, -⟩ := report_enabled rivals_assembled
    (.start .automation [] 10000000) (.refl _) rivals_scan hlisted
  obtain rfl : t = ⟨0⟩ := Option.some.inj (hfind.symm.trans (by decide +kernel))
  exact ⟨by decide +kernel, hspent rfl⟩

end Session

end AutomationNet
