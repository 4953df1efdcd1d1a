import AutomationNet.Proofs.Simulation.Plan

/-!
# Reachable sessions

The states a session reaches by ticks with any visiting order and any inputs, by overrides of marks
and by going back to its start.

* `Session.Reachable` : these states
* `Session.Consistent` : the live net is valid, and what was chosen is enabled, has nothing left to
  wait and is chosen once
* `Session.Consistent.tick` : a tick keeps it, although between its first firing and its last update
  the choice is out of date
* `Session.Reachable.consistent` : **every reachable session is consistent**
* `Session.reachable_bounds` : the same, field by field, for the net of a description
* `Session.runTick_not_refused` : **no tick ever fires a transition that may not fire**
-/

namespace AutomationNet

/-! ## After the updates of a tick -/

namespace Readiness

theorem remaining_of_enabled_update {delay step : Duration} {arcsHold guardHolds : Bool}
    {r : Readiness} (h : (r.update delay step arcsHold guardHolds).enabled = true) :
    (r.update delay step arcsHold guardHolds).remaining = 0 := by
  obtain ⟨harcs, hguard, hzero⟩ := (enabled_update _ _ _ _ _).mp h
  rw [remaining_update, harcs, hguard, hzero, Bool.and_self, if_pos rfl]
  exact Nat.zero_sub step

end Readiness

namespace LiveNet

variable {step : Duration} {inputs : Guard.Snapshot} {order : List (Ref Transition)}

/-- Updates in any order without repetitions: each transition is updated as if it were alone. -/
theorem ready_run_update (live : LiveNet) (hnodup : order.Nodup) (t : Ref Transition) :
    (live.run step inputs (order.map .update)).ready t =
      if t ∈ order ∧ t.index < live.readiness.size then
        (live.ready t).update (live.net.transition t).delay step (live.arcsEnabled t)
          ((live.net.transition t).guard.holds inputs)
      else live.ready t := by
  induction order generalizing live with
  | nil => simp [run]
  | cons u order ih =>
    obtain ⟨hu, hnodup⟩ := List.nodup_cons.mp hnodup
    have hsize : (live.update u step inputs).readiness.size = live.readiness.size :=
      Table.size_modify _ _ _
    rw [List.map_cons, run, List.foldl_cons]
    refine (ih (live.update u step inputs) hnodup).trans ?_
    rw [hsize, ready_update]
    by_cases hut : u = t
    · subst hut
      simp [hu]
    · have hmem : t ∈ u :: order ↔ t ∈ order := by simp [Ne.symm hut]
      rw [if_neg (fun h : u = t ∧ _ => hut h.1)]
      simp only [hmem]
      rfl

theorem arcsEnabled_run_update (live : LiveNet) (order : List (Ref Transition)) (t : Ref Transition) :
    (live.run step inputs (order.map .update)).arcsEnabled t = live.arcsEnabled t := by
  induction order generalizing live with
  | nil => rfl
  | cons u order ih => exact ih (live.update u step inputs)

end LiveNet

namespace Session

variable {s s' : Session} {order : List (Ref Transition)} {values : InputValues} {net : Net}

/-- What is chosen is enabled, by a policy that updates every transition before it chooses. -/
theorem mem_chosen_choose {policy : Policy} {live : LiveNet} {t : Ref Transition}
    (h : t ∈ (choose policy order live).chosen) :
    t ∈ order ∧ live.isEnabled t = true ∧ policy.visits order = order.map .update := by
  cases policy with
  | classic _ =>
    have hfind : order.find? live.isEnabled = some t := Option.mem_toList.mp h
    exact ⟨List.mem_of_find?_eq_some hfind, List.find?_some hfind, rfl⟩
  | automation => exact absurd h List.not_mem_nil
  | visObj _ =>
    obtain ⟨hmem, hon⟩ := List.mem_filter.mp h
    exact ⟨hmem, hon, rfl⟩

theorem nodup_chosen_choose (policy : Policy) (live : LiveNet) (h : order.Nodup) :
    (choose policy order live).chosen.Nodup := by
  cases policy with
  | classic _ =>
    show (order.find? live.isEnabled).toList.Nodup
    cases order.find? live.isEnabled with
    | none => exact List.nodup_nil
    | some t => exact List.nodup_singleton t
  | automation => exact List.nodup_nil
  | visObj _ => exact h.filter _

/-- A policy that updates every transition after the firings of a tick leaves those enabled whose arcs
and guard hold at the end of the tick and that have nothing left to wait. -/
theorem Yields.of_isEnabled {tick : Tick} {t : Ref Transition} (h : s.Yields order values tick)
    (hvisits : s.policy.visits order = order.map .update) (horder : order.Nodup) (ht : t ∈ order)
    (hon : tick.session.live.isEnabled t = true) :
    tick.session.live.arcsEnabled t = true ∧
      (s.net.transition t).guard.holds (s.inputs values) = true ∧
      (tick.session.live.ready t).remaining = 0 := by
  have hlive := h.live
  rw [plan, hvisits, LiveNet.run_append] at hlive
  rw [LiveNet.isEnabled, hlive, LiveNet.ready_run_update _ horder] at hon
  rw [hlive, LiveNet.ready_run_update _ horder, LiveNet.arcsEnabled_run_update]
  split at hon
  · rename_i hin
    rw [if_pos hin]
    obtain ⟨harcs, hguard, -⟩ := (Readiness.enabled_update _ _ _ _ _).mp hon
    rw [LiveNet.net_run] at hguard
    exact ⟨harcs, hguard, Readiness.remaining_of_enabled_update hon⟩
  · rename_i hout
    exact absurd ⟨ht, LiveNet.lt_of_isEnabled hon⟩ hout

theorem chosen_exit (s : Session) : s.exit.policy.chosen = [] := by
  unfold exit
  cases s.policy <;> rfl

theorem setMark_eq_ok {place : ElementId} {mark : Int} :
    s.setMark place mark = .ok s' ↔
      ∃ live, s.live.setMark place mark = .ok live ∧ s' = { s with live } := by
  simp only [setMark, bind_eq_ok, pure, Except.pure, Except.ok.injEq]
  constructor
  · rintro ⟨live, hlive, rfl⟩
    exact ⟨live, hlive, rfl⟩
  · rintro ⟨live, hlive, rfl⟩
    exact ⟨live, hlive, rfl⟩

theorem net_setMark {place : ElementId} {mark : Int} (h : s.setMark place mark = .ok s') :
    s'.net = s.net := by
  obtain ⟨_, hlive, rfl⟩ := setMark_eq_ok.mp h
  obtain ⟨_, -, -, -, rfl⟩ := LiveNet.setMark_eq_ok.mp hlive
  rfl

theorem setMark_of_addToken {place : ElementId} (h : s.addToken place = .ok s') :
    ∃ mark, s.setMark place mark = .ok s' := by
  unfold addToken at h
  split at h
  · cases h
  · exact ⟨_, h⟩

/-! ## Consistent sessions -/

/-- The live net is valid, and what was chosen for the next tick is enabled, has nothing left to wait
and is chosen once. -/
structure Consistent (s : Session) : Prop where
  live : s.live.Valid
  chosen_enabled : ∀ t ∈ s.policy.chosen, s.live.isEnabled t = true
  chosen_waited : ∀ t ∈ s.policy.chosen, (s.live.ready t).remaining = 0
  chosen_nodup : s.policy.chosen.Nodup

namespace Consistent

theorem of_chosen_eq_nil (hlive : s.live.Valid) (h : s.policy.chosen = []) : s.Consistent := by
  refine ⟨hlive, ?_, ?_, ?_⟩
  · rw [h]
    exact fun t ht => absurd ht List.not_mem_nil
  · rw [h]
    exact fun t ht => absurd ht List.not_mem_nil
  · rw [h]
    exact List.nodup_nil

theorem start (hnet : net.Sound) (mode : FiringMode) (initial : InputValues) (step : Duration) :
    (Session.start net mode initial step).Consistent :=
  of_chosen_eq_nil ((LiveNet.Valid.ofNet hnet).restartPlaces hnet) (by cases mode <;> rfl)

/-- A tick keeps a session consistent: only the updates at its end make up the choice. -/
theorem tick (h : s.Consistent) (hnodup : order.Nodup) {tick : Tick}
    (hyields : s.Yields order values tick) : tick.session.Consistent where
  live := hyields.course.valid h.live
  chosen_enabled t ht := by
    rw [hyields.policy] at ht
    exact (mem_chosen_choose ht).2.1
  chosen_waited t ht := by
    rw [hyields.policy] at ht
    obtain ⟨hmem, hon, hvisits⟩ := mem_chosen_choose ht
    exact (hyields.of_isEnabled hvisits hnodup hmem hon).2.2
  chosen_nodup := by
    rw [hyields.policy]
    exact nodup_chosen_choose _ _ hnodup

theorem setMark (h : s.Consistent) {place : ElementId} {mark : Int}
    (hset : s.setMark place mark = .ok s') : s'.Consistent := by
  obtain ⟨live, hlive, rfl⟩ := setMark_eq_ok.mp hset
  obtain ⟨_, -, -, hmark, rfl⟩ := LiveNet.setMark_eq_ok.mp hlive
  exact ⟨h.live.override (Table.size_set _ _ _) (h.live.mark_le.set hmark), h.chosen_enabled,
    h.chosen_waited, h.chosen_nodup⟩

/-- Going back to the start drops the choice together with the flags it rests on. -/
theorem exit (h : s.Consistent) (hnet : s.net.Sound) : s.exit.Consistent :=
  of_chosen_eq_nil (h.live.restartPlaces hnet).restartTransitions (chosen_exit s)

end Consistent

/-! ## Reachable sessions -/

/-- The states of the sessions of a net. -/
inductive Reachable (net : Net) : Session → Prop where
  | start (mode : FiringMode) (initial : InputValues) (step : Duration) :
      Reachable net (.start net mode initial step)
  | tick {s : Session} (h : Reachable net s) {order : List (Ref Transition)} {values : InputValues}
      {tick : Tick} (horder : order.Perm net.order) (hrun : s.runTick order values = .ok tick) :
      Reachable net tick.session
  | setMark {s s' : Session} (h : Reachable net s) {place : ElementId} {mark : Int}
      (hset : s.setMark place mark = .ok s') : Reachable net s'
  | addToken {s s' : Session} (h : Reachable net s) {place : ElementId}
      (hadd : s.addToken place = .ok s') : Reachable net s'
  | exit {s : Session} (h : Reachable net s) : Reachable net s.exit

theorem Consistent.yields (h : s.Consistent) {tick : Tick}
    (hrun : s.runTick order values = .ok tick) : s.Yields order values tick := by
  rcases runTick_cases h.chosen_enabled order values with ⟨-, herror⟩ | ⟨-, tick', hok, hyields⟩
  · rw [hrun] at herror
    cases herror
  · rw [hrun] at hok
    cases hok
    exact hyields

/-- **Every reachable session is consistent.** -/
theorem Reachable.consistent (h : Reachable net s) (hnet : net.Sound) :
    s.net = net ∧ s.Consistent := by
  induction h with
  | start mode initial step => exact ⟨rfl, .start hnet mode initial step⟩
  | tick _ horder hrun ih =>
    obtain ⟨hs, hconsistent⟩ := ih
    have hyields := hconsistent.yields hrun
    exact ⟨hyields.course.net_eq.trans hs,
      hconsistent.tick (horder.nodup_iff.mpr hnet.order_nodup) hyields⟩
  | setMark _ hset ih => exact ⟨(net_setMark hset).trans ih.1, ih.2.setMark hset⟩
  | addToken _ hadd ih =>
    obtain ⟨_, hset⟩ := setMark_of_addToken hadd
    exact ⟨(net_setMark hset).trans ih.1, ih.2.setMark hset⟩
  | exit _ ih => exact ⟨ih.1, ih.2.exit (ih.1 ▸ hnet)⟩

/-! ### Two rivals for the same parts -/

/-- Two transitions take from one place, which has enough for only one of them. -/
def rivals : NetDescription where
  places := [⟨"P1", "parts", .int, "2", []⟩]
  transitions := [{ id := "T1", name := "takeTwo" }, { id := "T2", name := "takeOne" }]
  arcs := [⟨"A1", "P1", "T1", .input, "2", []⟩, ⟨"A2", "P1", "T2", .input, "1", []⟩]

def rivalsNet : Net where
  places := ⟨[⟨"P1", "parts", .int, 2⟩]⟩
  transitions := ⟨[⟨"T1", "takeTwo", {}, 0, .zero⟩, ⟨"T2", "takeOne", {}, 0, .zero⟩]⟩
  arcs := ⟨[⟨"A1", ⟨0⟩, ⟨0⟩, .input, 2⟩, ⟨"A2", ⟨0⟩, ⟨1⟩, .input, 1⟩]⟩
  attachments := ⟨[{ inputs := [⟨0⟩] }, { inputs := [⟨1⟩] }]⟩
  placeKeys := ⟨[("P1", ⟨0⟩)]⟩
  transitionKeys := ⟨[("T2", ⟨1⟩), ("T1", ⟨0⟩)]⟩
  order := [⟨0⟩, ⟨1⟩]

/-- After one tick both are chosen. -/
def rivalsChosen : Session where
  live := ⟨rivalsNet, ⟨[2]⟩, ⟨[⟨0, true, true⟩, ⟨0, true, true⟩]⟩⟩
  policy := .visObj [⟨0⟩, ⟨1⟩]
  history := []
  step := 10000000
  tick := 1
  time := 10000000

theorem rivals_assembled : Net.assemble rivals = .ok rivalsNet :=
  Net.assemble_eq_ok (by decide +kernel) (by decide +kernel)

theorem rivalsChosen_reachable : Reachable rivalsNet rivalsChosen := by
  have hrun : (Session.start rivalsNet .visObj [] 10000000).runTick rivalsNet.order [] =
      .ok ⟨rivalsChosen, Session.report rivalsChosen.live ⟨[2]⟩ [] 1 10000000, [.tick 1], []⟩ := by
    decide +kernel
  exact (Reachable.start .visObj [] 10000000).tick (.refl _) hrun

/-! ### Results -/

/-- **What holds of the net of a description in every state of a session**: marks within capacity,
timers within the delay, no transition enabled without its guard, and every chosen transition
enabled, with nothing left to wait, and chosen once. -/
theorem reachable_bounds {description : NetDescription}
    (hnet : Net.assemble description = .ok net) (h : Reachable net s) :
    s.live.net = net ∧
    s.live.marking.size = net.places.size ∧ s.live.readiness.size = net.transitions.size ∧
    (∀ r place, net.places.get? r = some place →
      s.live.marking.mark r ≤ place.type.capacity ∧
        (place.type = .bool → s.live.marking.mark r = 0 ∨ s.live.marking.mark r = 1)) ∧
    (∀ t transition, net.transitions.get? t = some transition →
      (s.live.ready t).remaining ≤ transition.delay) ∧
    (∀ t, s.live.isEnabled t = true → (s.live.ready t).guardHolds = true) ∧
    (∀ t ∈ s.policy.chosen, s.live.isEnabled t = true ∧ (s.live.ready t).remaining = 0) ∧
    s.policy.chosen.Nodup := by
  obtain ⟨rfl, hs⟩ := h.consistent (Net.assemble_sound hnet)
  refine ⟨rfl, hs.live.marking_size, hs.live.readiness_size, fun r place hplace => ?_,
    fun t transition htransition => ?_, hs.live.guardHolds,
    fun t ht => ⟨hs.chosen_enabled t ht, hs.chosen_waited t ht⟩, hs.chosen_nodup⟩
  · have hle := hs.live.mark_le r
    rw [Net.place, show s.live.net.places.get? r = some place from hplace] at hle
    refine ⟨hle, fun hbool => ?_⟩
    rw [Option.getD_some, hbool, DataType.capacity] at hle
    omega
  · have hle := hs.live.remaining_le t
    rwa [Net.transition, show s.live.net.transitions.get? t = some transition from htransition] at hle

theorem rivals_bounds :
    rivalsChosen.policy.chosen = [⟨0⟩, ⟨1⟩] ∧
      (∀ t ∈ rivalsChosen.policy.chosen,
        rivalsChosen.live.isEnabled t = true ∧ (rivalsChosen.live.ready t).remaining = 0) ∧
      rivalsChosen.policy.chosen.Nodup := by
  obtain ⟨-, -, -, -, -, -, hchosen⟩ := reachable_bounds rivals_assembled rivalsChosen_reachable
  exact ⟨rfl, hchosen⟩

/-- **No tick ever fires a transition that may not fire**: whatever the visiting order and the inputs,
a tick succeeds unless it takes the clock past its end, and each of its firings is one of a
transition that is enabled at that moment with all its arcs. -/
theorem runTick_not_refused {description : NetDescription}
    (hnet : Net.assemble description = .ok net) (h : Reachable net s)
    (order : List (Ref Transition)) (values : InputValues) :
    (∀ e, s.runTick order values ≠ .error (.fire e)) ∧
    (Duration.maxDuration < s.time + s.step → s.runTick order values = .error .clockOverflow) ∧
    (s.time + s.step ≤ Duration.maxDuration → ∃ tick, s.runTick order values = .ok tick ∧
      tick.report.fired = (s.log order values).fired.map s.live.firing ∧
      tick.session.live = s.live.replay (s.log order values) ∧
      ∀ before t after, s.log order values = before ++ .fired t :: after →
        (s.live.replay before).isEnabled t = true ∧
          (s.live.replay before).arcsEnabled t = true) := by
  obtain ⟨-, hs⟩ := h.consistent (Net.assemble_sound hnet)
  rcases runTick_cases hs.chosen_enabled order values with
    ⟨hover, herror⟩ | ⟨hclock, tick, hok, hyields⟩
  · refine ⟨fun e he => ?_, fun _ => herror, fun hclock => absurd hover (Nat.not_lt.mpr hclock)⟩
    rw [herror] at he
    cases he
  · refine ⟨fun e he => ?_, fun hover => absurd hover (Nat.not_lt.mpr hclock), fun _ => ?_⟩
    · rw [hok] at he
      cases he
    · refine ⟨tick, hok, by rw [hyields.report]; rfl, hyields.course.eq_replay,
        fun before t after hlog => ?_⟩
      have hcan := (hyields.course.canFire_of_fired hlog).2
      rwa [LiveNet.canFire, Bool.and_eq_true] at hcan

/-- The first of the rivals takes both parts, and the second is passed over. -/
theorem rivals_runTick :
    ∃ tick, rivalsChosen.runTick [⟨1⟩, ⟨0⟩] [] = .ok tick ∧
      tick.report.fired = [rivalsChosen.live.firing ⟨0⟩] := by
  have hlog : (rivalsChosen.log [⟨1⟩, ⟨0⟩] []).fired = [⟨0⟩] := by decide +kernel
  obtain ⟨-, -, hclock⟩ :=
    runTick_not_refused rivals_assembled rivalsChosen_reachable [⟨1⟩, ⟨0⟩] []
  obtain ⟨tick, hrun, hfired, -⟩ := hclock (by decide)
  rw [hlog] at hfired
  exact ⟨tick, hrun, hfired⟩

end Session

end AutomationNet
