import AutomationNet.Proofs.Net.Commuting
import AutomationNet.Proofs.Simulation.Firings

/-!
# Pending transitions that fire together

Under `visObj` the pending transitions fire one after another, each on what those before it have left.
If none of them moves tokens where another one is attached, this cannot be told: each finds its arcs
as they were when the tick began, and what the firings leave does not depend on their order.

* `LiveNet.log_fireChosen_of_independent` : **of independent transitions those fire whose arcs are
  enabled before the first of them**
* `Session.Yields.together` : a tick whose pending transitions are independent
* `Session.pending_commutes` : **in any other order of the pending transitions the same ones fire, and
  the tick leaves the same session**
-/

namespace AutomationNet

namespace LiveNet

variable {step : Duration} {inputs : Guard.Snapshot} {live : LiveNet} {t : Ref Transition}
  {pending : List (Ref Transition)}

theorem replay_map_fired (live : LiveNet) (ts : List (Ref Transition)) :
    live.replay (ts.map .fired) = ts.foldl fired live :=
  List.foldl_map ..

theorem arcsEnabled_fireChosen {u : Ref Transition} (h : live.net.Apart t u) :
    (live.act step inputs (.fireChosen t)).arcsEnabled u = live.arcsEnabled u := by
  rw [act]
  split
  · exact h.arcsEnabled_move live.marking
  · rfl

/-- **Of independent transitions those fire whose arcs are enabled before the first of them.** -/
theorem log_fireChosen_of_independent (hnodup : pending.Nodup)
    (h : live.net.Independent pending) :
    live.log step inputs (pending.map .fireChosen) =
      (pending.filter live.arcsEnabled).map .fired := by
  induction pending generalizing live with
  | nil => rfl
  | cons t pending ih =>
    obtain ⟨ht, hnodup⟩ := List.nodup_cons.mp hnodup
    have hnet := net_act step inputs live (.fireChosen t)
    -- Whether or not the first one fires, those after it find their arcs as they were before.
    have hkept : pending.filter (live.act step inputs (.fireChosen t)).arcsEnabled =
        pending.filter live.arcsEnabled :=
      List.filter_congr fun u hu => arcsEnabled_fireChosen
        (h t List.mem_cons_self u (List.mem_cons_of_mem t hu) fun htu => ht (htu ▸ hu))
    have hrest := ih hnodup (hnet ▸ h.mono (List.subset_cons_self t pending))
    rw [List.map_cons, log, hrest, hkept, happenings, List.filter_cons]
    split <;> rfl

/-- What independent transitions leave when they have been attempted. -/
theorem run_fireChosen_of_independent (hnodup : pending.Nodup)
    (h : live.net.Independent pending) :
    live.run step inputs (pending.map .fireChosen) =
      (pending.filter live.arcsEnabled).foldl fired live := by
  rw [run_eq_replay, log_fireChosen_of_independent hnodup h, replay_map_fired]

end LiveNet

namespace Session

variable {s : Session} {net : Net} {order pending pending' : List (Ref Transition)}
  {values : InputValues} {tick tick' : Tick}

/-- All that a tick leaves of a session depends on the live net at its end. -/
theorem Yields.session_eq (h : s.Yields order values tick) :
    tick.session = {
      live := tick.session.live
      policy := choose s.policy order tick.session.live
      history := s.history.refresh values
      step := s.step
      tick := s.tick + 1
      time := s.time + s.step } :=
  (Session.mk.injEq ..).mpr ⟨rfl, h.policy, h.history, h.step, h.number, h.time⟩

/-- A tick whose pending transitions are independent: those fire, in order, whose arcs are enabled when
it begins, and then all transitions are updated. -/
theorem Yields.together (h : s.Yields order values tick) (hpolicy : s.policy = .visObj pending)
    (hnodup : pending.Nodup) (hind : s.live.net.Independent pending) :
    tick.session.live = ((pending.filter s.live.arcsEnabled).foldl LiveNet.fired s.live).run s.step
        (s.inputs values) (order.map .update) ∧
      tick.report = Session.report tick.session.live s.live.marking
        ((pending.filter s.live.arcsEnabled).map s.live.firing) (s.tick + 1) (s.time + s.step) := by
  have hplan : s.plan order = pending.map .fireChosen ++ order.map .update := by
    rw [plan, hpolicy]
    rfl
  constructor
  · rw [h.live, hplan, LiveNet.run_append, LiveNet.run_fireChosen_of_independent hnodup hind]
  · rw [h.report, log, hplan, LiveNet.log_append, Log.fired_append, LiveNet.fired_log_update,
      List.append_nil, LiveNet.log_fireChosen_of_independent hnodup hind, Log.fired_map_fired]

/-- The order in which independent transitions are pending shows in the list of firings alone. -/
theorem Yields.together_perm (h : s.Yields order values tick) (hpolicy : s.policy = .visObj pending)
    (hnodup : pending.Nodup) (hind : s.live.net.Independent pending) (hperm : pending'.Perm pending)
    (h' : Yields { s with policy := .visObj pending' } order values tick') :
    tick'.session = tick.session ∧
      tick'.report.fired.Perm tick.report.fired ∧
      tick'.report = { tick.report with fired := tick'.report.fired } := by
  have hfires : (pending'.filter s.live.arcsEnabled).Perm (pending.filter s.live.arcsEnabled) :=
    hperm.filter _
  have hind' : s.live.net.Independent pending' := hind.mono hperm.subset
  obtain ⟨hlive, hreport⟩ := h.together hpolicy hnodup hind
  obtain ⟨hlive', hreport'⟩ := h'.together rfl (hperm.nodup_iff.mpr hnodup) hind'
  have hsame : tick'.session.live = tick.session.live := by
    rw [hlive', hlive, s.live.foldl_fired_perm (hind'.mono (List.filter_subset_self _)) hfires]
    rfl
  refine ⟨?_, ?_, ?_⟩
  · rw [h'.session_eq, h.session_eq, hsame, hpolicy]
    rfl
  · rw [hreport', hreport]
    exact hfires.map s.live.firing
  · rw [hreport', hreport, hsame]
    rfl

/-! ### Two lanes with one supply -/

/-- Two transitions take from places of their own, and both ask whether there is power. -/
def lanes : NetDescription where
  places := [⟨"P1", "left", .int, "1", []⟩, ⟨"P2", "right", .int, "1", []⟩,
    ⟨"P3", "power", .bool, "1", []⟩]
  transitions := [{ id := "T1", name := "advanceLeft" }, { id := "T2", name := "advanceRight" }]
  arcs := [⟨"A1", "P1", "T1", .input, "1", []⟩, ⟨"A2", "P3", "T1", .test, "1", []⟩,
    ⟨"A3", "P2", "T2", .input, "1", []⟩, ⟨"A4", "P3", "T2", .test, "1", []⟩]

def lanesNet : Net where
  places := ⟨[⟨"P1", "left", .int, 1⟩, ⟨"P2", "right", .int, 1⟩, ⟨"P3", "power", .bool, 1⟩]⟩
  transitions := ⟨[⟨"T1", "advanceLeft", {}, 0, .zero⟩, ⟨"T2", "advanceRight", {}, 0, .zero⟩]⟩
  arcs := ⟨[⟨"A1", ⟨0⟩, ⟨0⟩, .input, 1⟩, ⟨"A2", ⟨2⟩, ⟨0⟩, .test, 1⟩,
    ⟨"A3", ⟨1⟩, ⟨1⟩, .input, 1⟩, ⟨"A4", ⟨2⟩, ⟨1⟩, .test, 1⟩]⟩
  attachments := ⟨[{ inputs := [⟨0⟩], tests := [⟨1⟩] }, { inputs := [⟨2⟩], tests := [⟨3⟩] }]⟩
  placeKeys := ⟨[("P3", ⟨2⟩), ("P2", ⟨1⟩), ("P1", ⟨0⟩)]⟩
  transitionKeys := ⟨[("T2", ⟨1⟩), ("T1", ⟨0⟩)]⟩
  order := [⟨0⟩, ⟨1⟩]

/-- After one tick both lanes are pending. -/
def lanesChosen : Session where
  live := ⟨lanesNet, ⟨[1, 1, 1]⟩, ⟨[⟨0, true, true⟩, ⟨0, true, true⟩]⟩⟩
  policy := .visObj [⟨0⟩, ⟨1⟩]
  history := []
  step := 10000000
  tick := 1
  time := 10000000

/-- Before the next tick the right lane is emptied. -/
def lanesEmptied : Session :=
  { lanesChosen with live := { lanesChosen.live with marking := ⟨[1, 0, 1]⟩ } }

theorem lanes_assembled : Net.assemble lanes = .ok lanesNet :=
  Net.assemble_eq_ok (by decide +kernel) (by decide +kernel)

theorem lanes_reachable : Reachable lanesNet lanesEmptied := by
  have hrun : (Session.start lanesNet .visObj [] 10000000).runTick lanesNet.order [] =
      .ok ⟨lanesChosen, Session.report lanesChosen.live ⟨[1, 1, 1]⟩ [] 1 10000000, [.tick 1], []⟩ := by
    decide +kernel
  have hset : lanesChosen.setMark "P2" 0 = .ok lanesEmptied := by decide +kernel
  exact ((Reachable.start .visObj [] 10000000).tick (.refl _) hrun).setMark hset

/-! ### Result -/

/-- **Independent transitions fire together.** Exactly those of them fire whose arcs are enabled
when the tick begins. Were they pending in any other order, the same ones would fire, and the tick
would leave the same session. -/
theorem pending_commutes {description : NetDescription} (hnet : Net.assemble description = .ok net)
    (h : Reachable net s) (hpolicy : s.policy = .visObj pending) (hind : net.Independent pending)
    (order : List (Ref Transition)) (values : InputValues) :
    (Duration.maxDuration < s.time + s.step → s.runTick order values = .error .clockOverflow) ∧
    (s.time + s.step ≤ Duration.maxDuration → ∃ tick, s.runTick order values = .ok tick ∧
      tick.report.fired = (pending.filter s.live.arcsEnabled).map s.live.firing ∧
      ∀ pending' : List (Ref Transition), pending'.Perm pending →
        ∃ tick', { s with policy := .visObj pending' }.runTick order values = .ok tick' ∧
          tick'.session = tick.session ∧
          tick'.report.fired.Perm tick.report.fired ∧
          tick'.report = { tick.report with fired := tick'.report.fired }) := by
  obtain ⟨rfl, hs⟩ := h.consistent (Net.assemble_sound hnet)
  have hnodup := hs.chosen_nodup
  have henabled := hs.chosen_enabled
  rw [hpolicy] at hnodup henabled
  refine ⟨runTick_of_overflow hs.chosen_enabled order values, fun hclock => ?_⟩
  obtain ⟨tick, hok, hyields⟩ := runTick_of_room hs.chosen_enabled order values hclock
  refine ⟨tick, hok, ?_, fun pending' hperm => ?_⟩
  · rw [(hyields.together hpolicy hnodup hind).2]
    rfl
  · have henabled' : ∀ t ∈ pending', s.live.isEnabled t = true := fun t ht =>
      henabled t (hperm.mem_iff.mp ht)
    obtain ⟨tick', hok', hyields'⟩ :=
      runTick_of_room (s := { s with policy := .visObj pending' }) henabled' order values hclock
    exact ⟨tick', hok', hyields.together_perm hpolicy hnodup hind hperm hyields'⟩

theorem lanes_commute :
    lanesNet.Independent [⟨0⟩, ⟨1⟩] ∧
    ∃ tick tick', lanesEmptied.runTick lanesNet.order [] = .ok tick ∧
      { lanesEmptied with policy := .visObj [⟨1⟩, ⟨0⟩] }.runTick lanesNet.order [] = .ok tick' ∧
      tick.report.fired = [lanesEmptied.live.firing ⟨0⟩] ∧ tick'.session = tick.session := by
  have hind : lanesNet.Independent [⟨0⟩, ⟨1⟩] := by decide +kernel
  obtain ⟨-, hclock⟩ := pending_commutes lanes_assembled lanes_reachable rfl hind lanesNet.order []
  obtain ⟨tick, hrun, hfired, hperm⟩ := hclock (by decide)
  obtain ⟨tick', hrun', hsession, -, -⟩ := hperm _ (List.Perm.swap _ _ [])
  refine ⟨hind, tick, tick', hrun, hrun', ?_, hsession⟩
  rw [hfired]
  decide +kernel

end Session

end AutomationNet
