import AutomationNet.Proofs.Net.Live

/-!
# Sequences of operations

A live net is used from outside by updates, firings, overrides and restarts. An operation that is
refused leaves the net as it was.

* `LiveNet.Operation`, `LiveNet.operate` : what is done to a live net, nothing if it is refused
* `LiveNet.operate_fire`, `LiveNet.operate_setMark_cases` : the operations that can be refused
* `LiveNet.net_operateAll`, `LiveNet.Valid.operateAll` : what every sequence of operations keeps
-/

namespace AutomationNet

namespace LiveNet

inductive Operation where
  | update (t : Ref Transition) (step : Duration) (inputs : Guard.Snapshot)
  | fire (t : Ref Transition)
  | setMark (place : ElementId) (mark : Int)
  | restartPlaces
  | restartTransitions

/-- The state after an operation, which is the state before if it is refused. -/
def operate (live : LiveNet) : Operation → LiveNet
  | .update t step inputs => live.update t step inputs
  | .fire t => ((live.fire t).map Prod.fst).toOption.getD live
  | .setMark place mark => (live.setMark place mark).toOption.getD live
  | .restartPlaces => live.restartPlaces
  | .restartTransitions => live.restartTransitions

def operateAll (live : LiveNet) (operations : List Operation) : LiveNet :=
  operations.foldl operate live

variable {live : LiveNet}

theorem operate_fire (live : LiveNet) (t : Ref Transition) :
    live.operate (.fire t) = if live.canFire t = true then live.fired t else live := by
  rw [operate, fire]
  split <;> rfl

theorem operate_setMark_cases (live : LiveNet) (place : ElementId) (mark : Int) :
    live.operate (.setMark place mark) = live ∨
      ∃ r, mark.toNat ≤ (live.net.place r).type.capacity ∧
        live.operate (.setMark place mark) =
          { live with marking := live.marking.set r mark.toNat } := by
  rw [operate]
  cases hset : live.setMark place mark with
  | error e => exact .inl rfl
  | ok next =>
    obtain ⟨r, -, -, hmark, rfl⟩ := setMark_eq_ok.mp hset
    exact .inr ⟨r, hmark, rfl⟩

theorem net_operate (live : LiveNet) (operation : Operation) :
    (live.operate operation).net = live.net := by
  cases operation with
  | update t step inputs => exact net_update live t step inputs
  | fire t =>
    rw [operate_fire]
    split
    · exact net_fired live t
    · rfl
  | setMark place mark =>
    rcases live.operate_setMark_cases place mark with hsame | ⟨r, -, hset⟩
    · rw [hsame]
    · rw [hset]
  | restartPlaces => rfl
  | restartTransitions => rfl

theorem Valid.operate (h : live.Valid) (hnet : live.net.Sound) (operation : Operation) :
    (live.operate operation).Valid := by
  cases operation with
  | update t step inputs => exact h.update t step inputs
  | fire t =>
    rw [operate_fire]
    split
    · exact h.fired t
    · exact h
  | setMark place mark =>
    rcases live.operate_setMark_cases place mark with hsame | ⟨r, hmark, hset⟩
    · rwa [hsame]
    · rw [hset]
      exact h.override (Table.size_set _ _ _) (h.mark_le.set hmark)
  | restartPlaces => exact h.restartPlaces hnet
  | restartTransitions => exact h.restartTransitions

theorem net_operateAll (live : LiveNet) (operations : List Operation) :
    (live.operateAll operations).net = live.net := by
  induction operations generalizing live with
  | nil => rfl
  | cons operation operations ih => exact (ih _).trans (live.net_operate operation)

theorem Valid.operateAll (h : live.Valid) (hnet : live.net.Sound) (operations : List Operation) :
    (live.operateAll operations).Valid := by
  induction operations generalizing live with
  | nil => exact h
  | cons operation operations ih =>
    refine ih (h.operate hnet operation) ?_
    rwa [net_operate]

end LiveNet

end AutomationNet
