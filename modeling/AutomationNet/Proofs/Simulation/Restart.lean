import AutomationNet.Proofs.Simulation.Delay

/-!
# Going back to the start

A session can go back to its start at any time. Marks, flags and the choice are then those of the net
as it was assembled. The timers are not: an assembled net has every delay still before it, while a net
that has gone back to its start has nothing left to wait.

* `LiveNet.get?_ofNet`, `LiveNet.get?_restartTransitions` : the readiness of each transition at both
* `LiveNet.isEnabled_update_restart` : the first update after going back waits for nothing
* `Session.exit_restores` : **all is as it was assembled, but for the timers of delayed transitions**
-/

namespace AutomationNet

namespace LiveNet

theorem get?_ofNet (net : Net) (t : Ref Transition) :
    (ofNet net).readiness.get? t =
      (net.transitions.get? t).map fun transition => .fresh transition.delay :=
  List.getElem?_map ..

theorem get?_restartTransitions (live : LiveNet) (t : Ref Transition) :
    live.restartTransitions.readiness.get? t = (live.readiness.get? t).map fun _ => .restarted :=
  List.getElem?_map ..

/-- After going back to the start a transition is enabled by the first update that finds its arcs and
its guard holding, whatever its delay. -/
theorem isEnabled_update_restart (live : LiveNet) {t : Ref Transition}
    (ht : t.index < live.readiness.size) (step : Duration) (inputs : Guard.Snapshot) :
    (live.restartTransitions.update t step inputs).isEnabled t = true ↔
      live.arcsEnabled t = true ∧ (live.net.transition t).guard.holds inputs = true := by
  have hlt : t.index < live.restartTransitions.readiness.size := by
    rwa [restartTransitions, Table.size_map]
  rw [isEnabled, ready_update, if_pos ⟨rfl, hlt⟩, ready_restartTransitions,
    Readiness.enabled_update]
  constructor
  · rintro ⟨harcs, hguard, -⟩
    exact ⟨harcs, hguard⟩
  · rintro ⟨harcs, hguard⟩
    exact ⟨harcs, hguard, rfl⟩

end LiveNet

namespace Session

variable {s : Session} {net : Net}

/-- After going back to the start the pulse has no delay left to wait. -/
theorem exit_not_fresh :
    ¬ ∀ (description : NetDescription) (net : Net) (s : Session),
      Net.assemble description = .ok net → Reachable net s →
        s.exit.live.marking = (LiveNet.ofNet net).marking ∧
        (∀ t, t.index < net.transitions.size →
          s.exit.live.ready t = (LiveNet.ofNet net).ready t) ∧
        s.exit.policy.chosen = [] := by
  intro h
  obtain ⟨-, hready, -⟩ := h pulse pulseNet _ pulse_assembled pulse_recorded.reachable
  have hsame := hready ⟨0⟩ (by decide)
  revert hsame
  decide

/-- **Going back to the start restores all but the timers.** Marks and flags are those of the net as
it was assembled and nothing is chosen, but no transition has anything left to wait. -/
theorem exit_restores {description : NetDescription} (hnet : Net.assemble description = .ok net)
    (h : Reachable net s) :
    s.exit.live.net = net ∧
    s.exit.live.marking = (LiveNet.ofNet net).marking ∧
    (∀ t transition, net.transitions.get? t = some transition →
      (LiveNet.ofNet net).readiness.get? t =
          some { remaining := transition.delay, enabled := false, guardHolds := false } ∧
        s.exit.live.readiness.get? t =
          some { remaining := 0, enabled := false, guardHolds := false }) ∧
    (s.exit.live = LiveNet.ofNet net ↔
      ∀ transition ∈ net.transitions.toList, transition.delay = 0) ∧
    s.exit.policy = .start s.policy.mode ∧ s.exit.policy.chosen = [] := by
  obtain ⟨rfl, hs⟩ := h.consistent (Net.assemble_sound hnet)
  have hfresh : ∀ t transition, s.net.transitions.get? t = some transition →
      (LiveNet.ofNet s.net).readiness.get? t = some (.fresh transition.delay) := by
    intro t transition ht
    rw [LiveNet.get?_ofNet, ht]
    rfl
  have hexit : ∀ t transition, s.net.transitions.get? t = some transition →
      s.exit.live.readiness.get? t = some .restarted := by
    intro t transition ht
    have hlt : t.index < s.live.readiness.size := by
      rw [hs.live.readiness_size]
      exact (List.getElem?_eq_some_iff.mp ht).1
    show s.live.restartPlaces.restartTransitions.readiness.get? t = _
    rw [LiveNet.get?_restartTransitions]
    show (s.live.readiness.get? t).map _ = _
    rw [Table.get?_eq_some hlt]
    rfl
  have hnone : ∀ t, s.net.transitions.get? t = none →
      s.exit.live.readiness.get? t = (LiveNet.ofNet s.net).readiness.get? t := by
    intro t ht
    have hsize : s.exit.live.readiness.size = s.net.transitions.size :=
      (Table.size_map _ _).trans hs.live.readiness_size
    rw [LiveNet.get?_ofNet, ht, Table.get?_eq_none]
    · rfl
    · rw [hsize]
      exact Nat.not_lt.mpr (List.getElem?_eq_none_iff.mp ht)
  refine ⟨rfl, rfl, fun t transition ht => ⟨hfresh t transition ht, hexit t transition ht⟩, ?_,
    rfl, chosen_exit s⟩
  constructor
  · intro hsame transition hmem
    obtain ⟨i, hi⟩ := List.getElem?_of_mem hmem
    have hzero := hexit ⟨i⟩ transition hi
    rw [hsame, hfresh ⟨i⟩ transition hi] at hzero
    exact congrArg Readiness.remaining (Option.some.inj hzero)
  · intro hzero
    have hready : s.exit.live.readiness = (LiveNet.ofNet s.net).readiness := by
      refine Table.ext_get? fun t => ?_
      cases ht : s.net.transitions.get? t with
      | none => exact hnone t ht
      | some transition =>
        rw [hexit t transition ht, hfresh t transition ht,
          hzero transition (List.mem_of_getElem? ht)]
        rfl
    exact (LiveNet.mk.injEq ..).mpr ⟨rfl, rfl, hready⟩

theorem pulse_exit :
    (pulseAfter 4 ⟨10000000, true, true⟩).exit.live.readiness.get? ⟨0⟩ = some ⟨0, false, false⟩ ∧
      (LiveNet.ofNet pulseNet).readiness.get? ⟨0⟩ = some ⟨10000000, false, false⟩ ∧
      (pulseAfter 4 ⟨10000000, true, true⟩).exit.live ≠ LiveNet.ofNet pulseNet := by
  obtain ⟨-, -, hready, hiff, -⟩ := exit_restores pulse_assembled pulse_recorded.reachable
  obtain ⟨hfresh, hexit⟩ := hready ⟨0⟩ _ rfl
  refine ⟨hexit, hfresh, fun hsame => ?_⟩
  have hzero := hiff.mp hsame _ (List.mem_singleton_self _)
  revert hzero
  decide

end Session

end AutomationNet
