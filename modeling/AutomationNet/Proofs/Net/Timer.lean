import AutomationNet.Proofs.Net.Operation
import Mathlib.Algebra.GroupWithZero.Nat
import Mathlib.Data.List.DropRight

/-!
# The timer of a transition

A transition waits for its delay while updates find its arcs enabled and its guard holding. What is
left to wait depends on the updates since something last set the timer: its construction, an update
that did not hold, a firing or a restart.

* `Transition.Event`, `Transition.react` : what happens to a transition
* `Transition.readiness` : a transition after some events
* `Transition.held`, `Transition.waited` : the updates at the end that held, and how long they took
* `Transition.lastReset?`, `Transition.setTo` : what set the timer before them, and to which wait
* `Transition.timer_spec` : **what is left to wait, and when an update enables the transition**
* `LiveNet.eventsOf`, `LiveNet.Valid.ready_operateAll`, `LiveNet.ready_operateAll` : what happens to a
  transition of a running net
-/

namespace AutomationNet

namespace Transition

/-- What happens to a transition: an update after a step of time, in which its arcs were enabled or
not and its guard was tested on some inputs, a firing, or a restart. -/
inductive Event where
  | updated (step : Duration) (arcsHold : Bool) (inputs : Guard.Snapshot)
  | fired
  | restarted

def Event.step : Event → Duration
  | .updated step _ _ => step
  | .fired => 0
  | .restarted => 0

def react (transition : Transition) (r : Readiness) : Event → Readiness
  | .updated step arcsHold inputs =>
    r.update transition.delay step arcsHold (transition.guard.holds inputs)
  | .fired => r.fired transition.delay
  | .restarted => .restarted

/-- A transition after some events from its construction on. -/
def readiness (transition : Transition) (events : List Event) : Readiness :=
  events.foldl transition.react (.fresh transition.delay)

/-- An update that finds the arcs enabled and the guard holding. -/
def isHeld (transition : Transition) : Event → Bool
  | .updated _ arcsHold inputs => arcsHold && transition.guard.holds inputs
  | .fired => false
  | .restarted => false

/-- The updates at the end of some events that held without interruption. -/
def held (transition : Transition) (events : List Event) : List Event :=
  events.rtakeWhile transition.isHeld

def waited (transition : Transition) (events : List Event) : Duration :=
  ((transition.held events).map Event.step).sum

/-- The event before these updates, if there is one. -/
def lastReset? (transition : Transition) (events : List Event) : Option Event :=
  (events.rdropWhile transition.isHeld).getLast?

/-- What an event other than such an update, or the construction, sets the timer to. -/
def setTo (transition : Transition) : Option Event → Duration
  | none => transition.delay
  | some (.updated _ _ _) => transition.delay
  | some .fired => transition.delay
  | some .restarted => 0

variable (transition : Transition) (events : List Event) (event : Event)

@[simp] theorem readiness_append_singleton :
    transition.readiness (events ++ [event]) =
      transition.react (transition.readiness events) event :=
  List.foldl_concat ..

variable {transition event}

theorem waited_append_of_held (h : transition.isHeld event = true) :
    transition.waited (events ++ [event]) = transition.waited events + event.step := by
  rw [waited, held, List.rtakeWhile_concat_pos _ _ _ h, List.map_append, List.sum_append]
  simp [waited, held]

theorem lastReset?_append_of_held (h : transition.isHeld event = true) :
    transition.lastReset? (events ++ [event]) = transition.lastReset? events := by
  rw [lastReset?, List.rdropWhile_concat_pos _ _ _ h, lastReset?]

theorem waited_append_of_not_held (h : ¬ transition.isHeld event = true) :
    transition.waited (events ++ [event]) = 0 := by
  rw [waited, held, List.rtakeWhile_concat_neg _ _ _ h]
  rfl

theorem lastReset?_append_of_not_held (h : ¬ transition.isHeld event = true) :
    transition.lastReset? (events ++ [event]) = some event := by
  rw [lastReset?, List.rdropWhile_concat_neg _ _ _ h, List.getLast?_concat]

theorem remaining_react_of_held (h : transition.isHeld event = true) (r : Readiness) :
    (transition.react r event).remaining = r.remaining - event.step := by
  cases event with
  | updated step arcsHold inputs =>
    have hheld : (arcsHold && transition.guard.holds inputs) = true := h
    rw [react, Readiness.remaining_update, if_pos hheld, Event.step]
  | fired => exact absurd h Bool.false_ne_true
  | restarted => exact absurd h Bool.false_ne_true

theorem remaining_react_of_not_held (h : ¬ transition.isHeld event = true) (r : Readiness) :
    (transition.react r event).remaining = transition.setTo (some event) := by
  cases event with
  | updated step arcsHold inputs =>
    have hheld : ¬ (arcsHold && transition.guard.holds inputs) = true := h
    rw [react, Readiness.remaining_update, if_neg hheld, setTo]
  | fired => rfl
  | restarted => rfl

/-- What is left to wait is what the timer was last set to without the time that has been waited. -/
theorem remaining_readiness (transition : Transition) (events : List Event) :
    (transition.readiness events).remaining =
      transition.setTo (transition.lastReset? events) - transition.waited events := by
  induction events using List.reverseRecOn with
  | nil => rfl
  | append_singleton events event ih =>
    rw [readiness_append_singleton]
    by_cases h : transition.isHeld event = true
    · rw [remaining_react_of_held h, ih, lastReset?_append_of_held events h,
        waited_append_of_held events h, Nat.sub_sub]
    · rw [remaining_react_of_not_held h, lastReset?_append_of_not_held events h,
        waited_append_of_not_held events h, Nat.sub_zero]

/-- **What is left to wait, and when an update enables a transition.** It waits for what the timer
was last set to without the time of the updates that have held since, and an update enables it
exactly if it holds and those before it have taken at least as long. -/
theorem timer_spec (transition : Transition) (events : List Event) :
    ((transition.readiness events).remaining : Int) =
        max 0 ((transition.setTo (transition.lastReset? events) : Int) - transition.waited events) ∧
      ∀ step arcsHold inputs,
        (transition.readiness (events ++ [.updated step arcsHold inputs])).enabled = true ↔
          (arcsHold = true ∧ transition.guard.holds inputs = true) ∧
            transition.setTo (transition.lastReset? events) ≤ transition.waited events := by
  have hremaining := transition.remaining_readiness events
  refine ⟨?_, fun step arcsHold inputs => ?_⟩
  · rw [hremaining]
    omega
  · rw [readiness_append_singleton, react, Readiness.enabled_update, ← and_assoc]
    refine and_congr_right fun _ => ?_
    rw [hremaining, Nat.sub_eq_zero_iff_le]

/-- A delay of two seconds lets the fifth update after half a second enable a transition, and a
restart lets the next one do so. -/
example : let transition : Transition := ⟨"T", "t", {}, 2000000000, .zero⟩
    let update : Event := .updated 500000000 true ⟨[], []⟩
    (transition.readiness (List.replicate 4 update)).enabled = false ∧
      (transition.readiness (List.replicate 5 update)).enabled = true ∧
      (transition.readiness [update, .fired, .restarted, update]).enabled = true := by
  decide

end Transition

/-! ## Running nets -/

namespace LiveNet

variable {net : Net} {live : LiveNet} {t : Ref Transition}

def eventOf (live : LiveNet) (t : Ref Transition) : Operation → List Transition.Event
  | .update u step inputs => if u = t then [.updated step (live.arcsEnabled t) inputs] else []
  | .fire u => if u = t ∧ live.canFire t = true then [.fired] else []
  | .setMark _ _ => []
  | .restartPlaces => []
  | .restartTransitions => [.restarted]

def eventsOf (live : LiveNet) (t : Ref Transition) : List Operation → List Transition.Event
  | [] => []
  | operation :: operations =>
    live.eventOf t operation ++ (live.operate operation).eventsOf t operations

theorem ready_operate (ht : t.index < live.readiness.size) (operation : Operation) :
    (live.operate operation).ready t =
      (live.eventOf t operation).foldl (live.net.transition t).react (live.ready t) := by
  cases operation with
  | update u step inputs =>
    rw [operate, ready_update, eventOf]
    by_cases hu : u = t
    · subst hu
      rw [if_pos ⟨rfl, ht⟩, if_pos rfl]
      rfl
    · rw [if_neg fun h => hu h.1, if_neg hu]
      rfl
  | fire u =>
    rw [operate_fire, eventOf]
    by_cases hu : u = t
    · subst hu
      by_cases hcan : live.canFire u = true
      · rw [if_pos hcan, if_pos ⟨rfl, hcan⟩, ready_fired, if_pos ⟨rfl, ht⟩]
        rfl
      · rw [if_neg hcan, if_neg fun h => hcan h.2]
        rfl
    · have hother : ¬ (u = t ∧ live.canFire t = true) := fun h => hu h.1
      rw [if_neg hother]
      split
      · rw [ready_fired, if_neg fun h => hu h.1]
        rfl
      · rfl
  | setMark place mark =>
    rcases live.operate_setMark_cases place mark with hsame | ⟨r, -, hset⟩
    · rw [hsame]
      rfl
    · rw [hset]
      rfl
  | restartPlaces => rfl
  | restartTransitions => exact ready_restartTransitions live t

theorem Valid.ready_operateAll (h : live.Valid) (hnet : live.net.Sound)
    (ht : t.index < live.net.transitions.size) (operations : List Operation) :
    (live.operateAll operations).ready t =
      (live.eventsOf t operations).foldl (live.net.transition t).react (live.ready t) := by
  -- What an operation is for the transition depends on the state, so every state is a start.
  induction operations generalizing live with
  | nil => rfl
  | cons operation operations ih =>
    have hsize : t.index < live.readiness.size := by rwa [h.readiness_size]
    have hsame : (live.operate operation).net = live.net := live.net_operate operation
    have hrest := ih (h.operate hnet operation) (hsame ▸ hnet) (hsame ▸ ht)
    rw [hsame] at hrest
    rw [eventsOf, List.foldl_append, ← ready_operate hsize]
    exact hrest

/-- A transition of a running net is one after the events that the operations were for it. -/
theorem ready_operateAll (hnet : net.Sound) (ht : t.index < net.transitions.size)
    (operations : List Operation) :
    ((ofNet net).operateAll operations).ready t =
      (net.transition t).readiness ((ofNet net).eventsOf t operations) := by
  have hready := (Valid.ofNet hnet).ready_operateAll hnet ht operations
  rw [ready_ofNet, if_pos ht] at hready
  exact hready

end LiveNet

end AutomationNet
