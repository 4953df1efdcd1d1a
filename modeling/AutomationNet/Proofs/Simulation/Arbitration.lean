import AutomationNet.Proofs.Net.Commuting
import AutomationNet.Proofs.Simulation.Reachable

/-!
# What the visiting order decides

Where transitions are chosen for the next tick, a tick visits them by updates alone. Updates commute,
so that the order in which they are visited leaves no trace in the net, in what is reported or in the
inputs. It decides among those that could be chosen, and nothing else.

* `Progress.foldl_update_perm` : **updates in any order come to the same**
* `Session.runTick_perm` : a tick in another order differs in what it chooses at the end
* `Policy.Alike` : a choice is made by both, or the same transitions are pending in some order
* `Session.order_arbitrates` : **two visiting orders lead to ticks that differ in the choice alone**
-/

namespace AutomationNet

def Tick.choosing (tick : Tick) (policy : Policy) : Tick :=
  { tick with session := { tick.session with policy } }

namespace Progress

/-- **Updates in any order come to the same.** -/
theorem foldl_update_perm {order order' : List (Ref Transition)} (h : order.Perm order')
    (step : Duration) (inputs : Guard.Snapshot) (p : Progress) :
    order.foldl (update step inputs) p = order'.foldl (update step inputs) p := by
  have hcomm : ∀ (p : Progress) (t u : Ref Transition),
      (p.update step inputs t).update step inputs u =
        (p.update step inputs u).update step inputs t := fun p t u =>
    (Progress.mk.injEq ..).mpr ⟨p.live.update_comm t u step inputs, rfl, rfl⟩
  exact h.foldl_eq' (fun t _ u _ p => hcomm p t u) p

end Progress

namespace Policy

/-- Two choices for the next tick: both have a candidate or neither has one, or the same transitions
are pending in some order. -/
inductive Alike : Policy → Policy → Prop where
  | classic {candidate candidate' : Option (Ref Transition)}
      (h : candidate.isSome = candidate'.isSome) : Alike (.classic candidate) (.classic candidate')
  | visObj {pending pending' : List (Ref Transition)} (h : pending.Perm pending') :
      Alike (.visObj pending) (.visObj pending')

end Policy

namespace Session

variable {s : Session} {net : Net} {order order' : List (Ref Transition)} {values : InputValues}

theorem choose_alike {policy : Policy} (hmode : policy.mode ≠ .automation)
    (horder : order.Perm order') (live : LiveNet) :
    (choose policy order live).Alike (choose policy order' live) := by
  cases policy with
  | classic _ =>
    refine .classic (Bool.eq_iff_iff.mpr ?_)
    rw [List.find?_isSome, List.find?_isSome]
    exact exists_congr fun t => and_congr_left' horder.mem_iff
  | automation => exact absurd rfl hmode
  | visObj _ => exact .visObj (horder.filter _)

/-- Where nothing fires on a visit, the visits come to the same in every order. -/
theorem visit_perm (hmode : s.policy.mode ≠ .automation) (horder : order.Perm order')
    (inputs : Guard.Snapshot) (p : Progress) : s.visit order inputs p = s.visit order' inputs p := by
  unfold visit
  cases hpolicy : s.policy with
  | classic _ => exact congrArg Except.ok (Progress.foldl_update_perm horder s.step inputs p)
  | automation => exact absurd (congrArg Policy.mode hpolicy) hmode
  | visObj _ => exact congrArg Except.ok (Progress.foldl_update_perm horder s.step inputs p)

/-- A tick in another order fails with the same error, or differs in what it chooses at the end. -/
theorem runTick_perm (hmode : s.policy.mode ≠ .automation) (horder : order.Perm order')
    (values : InputValues) :
    s.runTick order' values = (s.runTick order values).map fun tick =>
      tick.choosing (choose s.policy order' tick.session.live) := by
  have hadvance : s.advance order' values = s.advance order values := by
    unfold advance
    simp only [visit_perm hmode horder]
  unfold runTick
  rw [hadvance]
  cases s.advance order values with
  | error e => rfl
  | ok done =>
    by_cases hclock : Duration.maxDuration < s.time + s.step
    · simp [bind, Except.bind, Except.mapError, Except.map, hclock]
    · simp [bind, Except.bind, Except.mapError, Except.map, hclock, pure, Except.pure,
        Tick.choosing]

/-! ## Result -/

/-- **The visiting order only arbitrates.** Where transitions are chosen for the next tick, two
orders lead to the same outcome of this one but for its choice: another candidate, or the same
pending transitions in another order. -/
theorem order_arbitrates {description : NetDescription} (hnet : Net.assemble description = .ok net)
    (h : Reachable net s) (hmode : s.policy.mode ≠ .automation) (horder : order.Perm net.order)
    (horder' : order'.Perm net.order) (values : InputValues) :
    (Duration.maxDuration < s.time + s.step →
      s.runTick order values = .error .clockOverflow ∧
        s.runTick order' values = .error .clockOverflow) ∧
    (s.time + s.step ≤ Duration.maxDuration → ∃ tick policy,
      s.runTick order values = .ok tick ∧ s.runTick order' values = .ok (tick.choosing policy) ∧
        tick.session.policy.Alike policy) := by
  obtain ⟨-, hs⟩ := h.consistent (Net.assemble_sound hnet)
  have hperm : order.Perm order' := horder.trans horder'.symm
  rw [runTick_perm hmode hperm values]
  constructor
  · intro hover
    rw [runTick_of_overflow hs.chosen_enabled order values hover]
    exact ⟨rfl, rfl⟩
  · intro hclock
    obtain ⟨tick, hok, hyields⟩ := runTick_of_room hs.chosen_enabled order values hclock
    rw [hok]
    refine ⟨tick, _, rfl, rfl, ?_⟩
    rw [hyields.policy]
    exact choose_alike hmode hperm tick.session.live

/-- Each of the rivals becomes the candidate if it is visited first. -/
theorem rivals_arbitrated :
    ∃ tick, (Session.start rivalsNet .classic [] 10000000).runTick rivalsNet.order [] = .ok tick ∧
      (Session.start rivalsNet .classic [] 10000000).runTick [⟨1⟩, ⟨0⟩] [] =
        .ok (tick.choosing (.classic (some ⟨1⟩))) ∧
      tick.session.policy = .classic (some ⟨0⟩) := by
  obtain ⟨-, hclock⟩ := order_arbitrates rivals_assembled (.start .classic [] 10000000) nofun
    (List.Perm.refl rivalsNet.order) (List.Perm.swap _ _ []) []
  obtain ⟨tick, policy, hrun, hrun', -⟩ := hclock (by decide)
  have hfirst : tick.session.policy = .classic (some ⟨0⟩) :=
    eq_of_map_eq_ok hrun (f := fun tick => tick.session.policy) (by decide +kernel)
  have hsecond : policy = .classic (some ⟨1⟩) :=
    eq_of_map_eq_ok hrun' (f := fun tick => tick.session.policy) (by decide +kernel)
  exact ⟨tick, hrun, hsecond ▸ hrun', hfirst⟩

end Session

end AutomationNet
