import AutomationNet.Proofs.Net.Flow
import AutomationNet.Proofs.Net.Identifier
import AutomationNet.Proofs.Simulation.Reachable

/-!
# The firings of a tick

What fires in a tick is attempted there once: it was chosen in the tick before, or it comes up in the
visiting order. The firings alone make up all that a tick does to the marks.

* `Move.target?` : what a move attempts to fire
* `LiveNet.marking_run` : **the marks after some moves are those after their firings**
* `Session.fired_sublist` : **what fires was chosen, or is visited under `automation`**
* `Session.Consistent.fired_nodup`, `Session.Consistent.fired_lt` : it fires once, and is a transition
  of the net
* `Session.Consistent.mem_firedIds` : the identifiers in a report are those of what fired
-/

namespace AutomationNet

/-- What a move attempts to fire. -/
def Move.target? : Move → Option (Ref Transition)
  | .update _ => none
  | .fireChosen t => some t
  | .fireEnabled t => some t

theorem Move.targets_update (order : List (Ref Transition)) :
    (order.map Move.update).filterMap Move.target? = [] := by
  simp [List.filterMap_map, target?, Function.comp_def]

theorem Policy.length_chosen {policy : Policy} (h : policy.mode = .classic) :
    policy.chosen.length ≤ 1 := by
  cases policy with
  | classic candidate => cases candidate <;> simp [chosen]
  | automation => cases h
  | visObj _ => cases h

@[simp] theorem Log.fired_map_fired (fires : List (Ref Transition)) :
    Log.fired (fires.map .fired) = fires := by
  simp [fired, List.filterMap_map]

theorem Log.exists_of_mem_fired {log : Log} {t : Ref Transition} (h : t ∈ log.fired) :
    ∃ before after, log = before ++ .fired t :: after := by
  obtain ⟨happening, hmem, ht⟩ := List.mem_filterMap.mp h
  cases happening with
  | fired u =>
    obtain rfl := Option.some.inj ht
    exact List.append_of_mem hmem
  | updated => cases ht
  | overridden => cases ht

namespace LiveNet

variable {step : Duration} {inputs : Guard.Snapshot}

/-- Of what some moves attempt to fire, some fires, in order. -/
theorem fired_log_sublist (live : LiveNet) (moves : List Move) :
    (live.log step inputs moves).fired.Sublist (moves.filterMap Move.target?) := by
  induction moves generalizing live with
  | nil => exact .refl _
  | cons move moves ih =>
    rw [log, Log.fired_append]
    rcases move_cases step inputs live move with
      ⟨t, rfl, -, hhappens⟩ | ⟨t, hmove, hhappens⟩
    · rw [hhappens]
      exact ih _
    · have htarget : move.target? = some t := by rcases hmove with rfl | rfl <;> rfl
      rw [List.filterMap_cons_some htarget]
      rcases hhappens with ⟨-, hhappens⟩ | ⟨-, hhappens⟩
      · rw [hhappens]
        exact (ih _).cons_cons t
      · rw [hhappens]
        exact (ih _).cons t

theorem fired_log_update (live : LiveNet) (order : List (Ref Transition)) :
    (live.log step inputs (order.map .update)).fired = [] := by
  have hsub := @fired_log_sublist step inputs live (order.map .update)
  rw [Move.targets_update] at hsub
  exact List.sublist_nil.mp hsub

/-- **The marks after some moves are those after their firings.** -/
theorem marking_run (live : LiveNet) (moves : List Move) :
    (live.run step inputs moves).marking =
      (live.log step inputs moves).fired.foldl live.net.move live.marking := by
  induction moves generalizing live with
  | nil => rfl
  | cons move moves ih =>
    rw [log, Log.fired_append, List.foldl_append]
    refine (ih _).trans ?_
    rw [net_act]
    congr 1
    rcases move_cases step inputs live move with
      ⟨t, -, hact, hhappens⟩ | ⟨t, -, ⟨hact, hhappens⟩ | ⟨hact, hhappens⟩⟩
    all_goals
      rw [hact, hhappens]
      rfl

end LiveNet

namespace Session

variable {s : Session} {order : List (Ref Transition)} {values : InputValues} {t : Ref Transition}

/-- **What fires was chosen in the tick before, or is visited under `automation`.** -/
theorem fired_sublist (s : Session) (order : List (Ref Transition)) (values : InputValues) :
    (s.policy.mode ≠ .automation ∧ (s.log order values).fired.Sublist s.policy.chosen) ∨
      (s.policy.mode = .automation ∧ (s.log order values).fired.Sublist order) := by
  have hchosen : (s.policy.chosen.map Move.fireChosen).filterMap Move.target? = s.policy.chosen := by
    simp [List.filterMap_map, Move.target?, Function.comp_def]
  have hsub : (s.log order values).fired.Sublist
      (s.policy.chosen ++ (s.policy.visits order).filterMap Move.target?) := by
    rw [← hchosen, ← List.filterMap_append]
    exact s.live.fired_log_sublist (s.plan order)
  rcases s.policy.visits_cases with ⟨hmode, hvisits⟩ | ⟨hmode, hnil, hvisits⟩
  · rw [hvisits, Move.targets_update, List.append_nil] at hsub
    exact .inl ⟨hmode, hsub⟩
  · have hscan : (order.flatMap fun t => [Move.update t, .fireEnabled t]).filterMap Move.target? =
        order := by
      rw [List.filterMap_flatMap]
      exact List.flatMap_singleton' order
    rw [hvisits, hscan, hnil, List.nil_append] at hsub
    exact .inr ⟨hmode, hsub⟩

theorem Consistent.fired_nodup (h : s.Consistent) (horder : order.Nodup) (values : InputValues) :
    (s.log order values).fired.Nodup := by
  rcases s.fired_sublist order values with ⟨-, hsub⟩ | ⟨-, hsub⟩
  · exact hsub.nodup h.chosen_nodup
  · exact hsub.nodup horder

theorem Consistent.fired_lt (h : s.Consistent) {tick : Tick} (hyields : s.Yields order values tick)
    (ht : t ∈ (s.log order values).fired) : t.index < s.net.transitions.size := by
  obtain ⟨before, after, hlog⟩ := Log.exists_of_mem_fired ht
  obtain ⟨hcourse, hcan⟩ := hyields.course.canFire_of_fired hlog
  rw [LiveNet.canFire, Bool.and_eq_true] at hcan
  have hlt := LiveNet.lt_of_isEnabled hcan.1
  rwa [(hcourse.valid h.live).readiness_size, hcourse.net_eq] at hlt

theorem Consistent.mem_firedIds (h : s.Consistent) (hids : s.net.ids.Nodup) {tick : Tick}
    (hyields : s.Yields order values tick) (ht : t.index < s.net.transitions.size) :
    (s.net.transition t).id ∈ tick.report.firedIds ↔ t ∈ (s.log order values).fired := by
  rw [TickReport.firedIds, hyields.report]
  simp only [report, List.map_map, List.mem_map]
  constructor
  · rintro ⟨u, hu, hid⟩
    rwa [← Net.transition_eq_of_id hids (h.fired_lt hyields hu) ht hid]
  · exact fun hmem => ⟨t, hmem, rfl⟩

end Session

end AutomationNet
