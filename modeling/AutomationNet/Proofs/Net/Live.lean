import AutomationNet.Net.Live
import AutomationNet.Proofs.Net.Assembled

/-!
# What the operations of a live net keep

* `LiveNet.ready_update`, `LiveNet.ready_fired` : the readiness of every transition after one has
  been updated or fired
* `LiveNet.setMark_eq_ok` : when an override succeeds, and all it does
* `LiveNet.Valid` : marks within capacity, timers within the delay, no transition enabled without
  its guard
* `LiveNet.Valid.update`, `LiveNet.Valid.fired`, `LiveNet.Valid.override`,
  `LiveNet.Valid.restartPlaces`, `LiveNet.Valid.restartTransitions` : every operation keeps it
-/

namespace AutomationNet

theorem Table.getD_modify {κ α : Type} (t : Table κ α) (r s : Ref κ) (f : α → α) (d : α) :
    ((t.modify r f).get? s).getD d =
      if r = s ∧ r.index < t.size then f ((t.get? s).getD d) else (t.get? s).getD d := by
  rw [Table.get?_modify]
  by_cases hrs : r = s
  · subst hrs
    by_cases hr : r.index < t.size
    · simp [hr, Table.get?_eq_some hr]
    · simp [hr, Table.get?_eq_none hr]
  · simp [hrs]

theorem Marking.mark_modify (m : Marking) (r s : Ref Place) (f : Nat → Nat) :
    Marking.mark (m.modify r f) s =
      if r = s ∧ r.index < m.size then f (m.mark s) else m.mark s :=
  m.getD_modify r s f 0

theorem Marking.mark_set (m : Marking) (r s : Ref Place) (mark : Nat) :
    Marking.mark (m.set r mark) s = if r = s ∧ r.index < m.size then mark else m.mark s := by
  unfold Marking.mark
  rw [Table.get?_set]
  split <;> rfl

/-! ## Marks within capacity -/

theorem DataType.consume_le {type : DataType} {mark : Nat} (weight : Nat)
    (h : mark ≤ type.capacity) : type.consume weight mark ≤ type.capacity := by
  cases type with
  | int => exact Nat.le_trans (Nat.sub_le mark weight) h
  | bool => exact Nat.zero_le _

theorem DataType.produce_le (type : DataType) (weight mark : Nat) :
    type.produce weight mark ≤ type.capacity := by
  cases type with
  | int => exact Nat.min_le_right _ _
  | bool => exact Nat.le_refl 1

namespace Net

def WithinCapacity (net : Net) (m : Marking) : Prop := ∀ r, m.mark r ≤ (net.place r).type.capacity

theorem mark_initialMarking {net : Net} {r : Ref Place} {place : Place}
    (h : net.places.get? r = some place) : net.initialMarking.mark r = place.initialMark := by
  have hget : net.places.toList[r.index]? = some place := h
  rw [Marking.mark, Net.initialMarking, Table.get?, List.getElem?_map, hget]
  rfl

theorem Sound.initialMarking {net : Net} (h : net.Sound) :
    net.WithinCapacity net.initialMarking := by
  intro r
  by_cases hr : r.index < net.places.size
  · have hget := Table.get?_eq_some hr
    rw [mark_initialMarking hget, place_of_get? hget]
    exact h.initialMark_le _ (List.getElem_mem _)
  · have hnone : net.initialMarking.get? r = none :=
      Table.get?_eq_none (by simpa [Net.initialMarking, Table.size] using hr)
    rw [Marking.mark, hnone]
    exact Nat.zero_le _

variable {net : Net} {m : Marking}

theorem WithinCapacity.modify (h : net.WithinCapacity m) (r : Ref Place) {f : Nat → Nat}
    (hf : ∀ mark ≤ (net.place r).type.capacity, f mark ≤ (net.place r).type.capacity) :
    net.WithinCapacity (m.modify r f) := by
  intro s
  rw [Marking.mark_modify]
  split
  · rename_i hrs
    rw [← hrs.1]
    exact hf _ (h r)
  · exact h s

theorem WithinCapacity.set (h : net.WithinCapacity m) {r : Ref Place} {mark : Nat}
    (hmark : mark ≤ (net.place r).type.capacity) : net.WithinCapacity (m.set r mark) := by
  intro s
  rw [Marking.mark_set]
  split
  · rename_i hrs
    rw [← hrs.1]
    exact hmark
  · exact h s

theorem WithinCapacity.foldl {f : Marking → Arc → Marking}
    (step : ∀ m arc, net.WithinCapacity m → net.WithinCapacity (f m arc)) (arcs : List Arc)
    (h : net.WithinCapacity m) : net.WithinCapacity (arcs.foldl f m) := by
  induction arcs generalizing m with
  | nil => exact h
  | cons arc arcs ih => exact ih (step m arc h)

/-- A firing never overfills a place, however many arcs lead to it. -/
theorem WithinCapacity.move (h : net.WithinCapacity m) (t : Ref Transition) :
    net.WithinCapacity (net.move m t) := by
  refine .foldl (fun m arc hm => ?_) _ (.foldl (fun m arc hm => ?_) _ h)
  · exact hm.modify _ fun _ _ => DataType.produce_le _ _ _
  · exact hm.modify _ fun _ hmark => DataType.consume_le _ hmark

theorem size_foldl {α : Type} {f : Marking → α → Marking} (step : ∀ m a, (f m a).size = m.size)
    (l : List α) (m : Marking) : (l.foldl f m).size = m.size := by
  induction l generalizing m with
  | nil => rfl
  | cons a l ih => exact (ih _).trans (step m a)

@[simp] theorem size_move (net : Net) (m : Marking) (t : Ref Transition) :
    (net.move m t).size = m.size := by
  unfold move
  refine (size_foldl (fun m arc => ?_) _ _).trans (size_foldl (fun m arc => ?_) _ _)
  · exact Table.size_modify m _ _
  · exact Table.size_modify m _ _

end Net

/-! ## Readiness -/

namespace Readiness

theorem update_remaining_le {delay : Duration} {r : Readiness} (h : r.remaining ≤ delay)
    (step : Duration) (arcsHold guardHolds : Bool) :
    (r.update delay step arcsHold guardHolds).remaining ≤ delay := by
  unfold update
  split
  · split
    · exact Nat.zero_le delay
    · exact Nat.le_trans (Nat.sub_le _ _) h
  · exact Nat.le_refl delay

/-- An update enables a transition exactly if arcs and guard hold and nothing is left to wait. -/
theorem enabled_update (delay step : Duration) (arcsHold guardHolds : Bool) (r : Readiness) :
    (r.update delay step arcsHold guardHolds).enabled = true ↔
      arcsHold = true ∧ guardHolds = true ∧ r.remaining = 0 := by
  unfold update
  split
  · rename_i h
    rw [Bool.and_eq_true] at h
    split
    · rename_i h0
      simp [h, h0]
    · rename_i h0
      simp [h0]
  · rename_i h
    simp only [Bool.and_eq_true, not_and] at h
    simp only [Bool.false_eq_true, false_iff]
    exact fun ⟨ha, hg, _⟩ => h ha hg

@[simp] theorem guardHolds_update (delay step : Duration) (arcsHold guardHolds : Bool)
    (r : Readiness) : (r.update delay step arcsHold guardHolds).guardHolds = guardHolds := by
  unfold update
  split
  · split <;> rfl
  · rfl

theorem remaining_update (delay step : Duration) (arcsHold guardHolds : Bool) (r : Readiness) :
    (r.update delay step arcsHold guardHolds).remaining =
      if arcsHold && guardHolds then r.remaining - step else delay := by
  unfold update
  split
  · split
    · rename_i h0
      simp [h0]
    · rfl
  · rfl

end Readiness

/-! ## Live nets -/

namespace LiveNet

variable {live live' : LiveNet} {t u : Ref Transition}

@[simp] theorem net_update (live : LiveNet) (t : Ref Transition) (step : Duration)
    (inputs : Guard.Snapshot) : (live.update t step inputs).net = live.net := rfl

@[simp] theorem net_fired (live : LiveNet) (t : Ref Transition) : (live.fired t).net = live.net :=
  rfl

theorem ready_update (live : LiveNet) (t u : Ref Transition) (step : Duration)
    (inputs : Guard.Snapshot) :
    (live.update t step inputs).ready u =
      if t = u ∧ t.index < live.readiness.size then
        (live.ready u).update (live.net.transition t).delay step (live.arcsEnabled t)
          ((live.net.transition t).guard.holds inputs)
      else live.ready u :=
  live.readiness.getD_modify t u _ default

theorem ready_fired (live : LiveNet) (t u : Ref Transition) :
    (live.fired t).ready u =
      if t = u ∧ t.index < live.readiness.size then
        (live.ready u).fired (live.net.transition t).delay
      else live.ready u :=
  live.readiness.getD_modify t u _ default

theorem ready_ofNet (net : Net) (t : Ref Transition) :
    (ofNet net).ready t =
      if t.index < net.transitions.size then .fresh (net.transition t).delay else default := by
  by_cases ht : t.index < net.transitions.size
  · have hget := Table.get?_eq_some ht
    rw [if_pos ht, Net.transition, hget]
    simp only [Table.get?] at hget
    simp [ready, ofNet, Table.get?, List.getElem?_map, hget]
  · rw [if_neg ht, ready, Table.get?_eq_none (by simpa [ofNet, Table.size] using ht)]
    rfl

theorem ready_restartTransitions (live : LiveNet) (t : Ref Transition) :
    live.restartTransitions.ready t = .restarted := by
  by_cases ht : t.index < live.readiness.size
  · have hlen : t.index < live.readiness.toList.length := ht
    simp [ready, restartTransitions, Table.get?, Table.map, hlen]
  · rw [ready, Table.get?_eq_none (by simpa [restartTransitions] using ht)]
    rfl

/-- A firing leaves the outcome of every last update as it is. -/
@[simp] theorem isEnabled_fired (live : LiveNet) (t u : Ref Transition) :
    (live.fired t).isEnabled u = live.isEnabled u := by
  unfold isEnabled
  rw [ready_fired]
  split <;> rfl

theorem lt_of_isEnabled (h : live.isEnabled t = true) : t.index < live.readiness.size := by
  by_contra hlt
  rw [isEnabled, ready, Table.get?_eq_none hlt] at h
  exact Bool.false_ne_true h

theorem arcsEnabled_of_isEnabled_update {step : Duration} {inputs : Guard.Snapshot}
    (h : (live.update t step inputs).isEnabled t = true) : live.arcsEnabled t = true := by
  have hlt : t.index < live.readiness.size := by
    have := lt_of_isEnabled h
    simpa [update] using this
  rw [isEnabled, ready_update, if_pos ⟨rfl, hlt⟩, Readiness.enabled_update] at h
  exact h.1

theorem setMark_eq_ok {id : ElementId} {mark : Int} :
    live.setMark id mark = .ok live' ↔ ∃ r, live.net.placeRef? id = some r ∧ 0 ≤ mark ∧
      mark.toNat ≤ (live.net.place r).type.capacity ∧
      live' = { live with marking := live.marking.set r mark.toNat } := by
  unfold setMark
  cases live.net.placeRef? id with
  | none => simp
  | some r =>
    simp only [Option.some.injEq, exists_eq_left']
    split
    · rename_i hneg
      simp [Int.not_le.mpr hneg]
    · rename_i hneg
      split
      · rename_i hover
        simp [Nat.not_le.mpr hover]
      · rename_i hover
        simp [Int.not_lt.mp hneg, Nat.not_lt.mp hover, eq_comm]

/-! ## Valid live nets -/

/-- Every place holds no more than it can, every timer is within its delay, and no transition is
enabled without its guard. -/
structure Valid (live : LiveNet) : Prop where
  marking_size : live.marking.size = live.net.places.size
  readiness_size : live.readiness.size = live.net.transitions.size
  mark_le : live.net.WithinCapacity live.marking
  remaining_le : ∀ t, (live.ready t).remaining ≤ (live.net.transition t).delay
  guardHolds : ∀ t, live.isEnabled t = true → (live.ready t).guardHolds = true

namespace Valid

theorem ofNet {net : Net} (h : net.Sound) : (LiveNet.ofNet net).Valid := by
  refine ⟨by simp [LiveNet.ofNet, Net.initialMarking, Table.size],
    by simp [LiveNet.ofNet, Table.size], h.initialMarking, fun t => ?_, fun t ht => ?_⟩
  · rw [ready_ofNet]
    split
    · exact Nat.le_refl _
    · exact Nat.zero_le _
  · rw [LiveNet.isEnabled, ready_ofNet] at ht
    split at ht <;> exact absurd ht Bool.false_ne_true

theorem update (h : live.Valid) (t : Ref Transition) (step : Duration) (inputs : Guard.Snapshot) :
    (live.update t step inputs).Valid where
  marking_size := h.marking_size
  readiness_size := by
    rw [LiveNet.update, Table.size_modify]
    exact h.readiness_size
  mark_le := h.mark_le
  remaining_le u := by
    rw [ready_update]
    split
    · rename_i htu
      rw [← htu.1]
      exact Readiness.update_remaining_le (h.remaining_le t) _ _ _
    · exact h.remaining_le u
  guardHolds u hu := by
    rw [isEnabled, ready_update] at hu
    rw [ready_update]
    split at hu
    · rename_i htu
      rw [if_pos htu, Readiness.guardHolds_update]
      exact ((Readiness.enabled_update _ _ _ _ _).mp hu).2.1
    · rename_i htu
      rw [if_neg htu]
      exact h.guardHolds u hu

theorem fired (h : live.Valid) (t : Ref Transition) : (live.fired t).Valid where
  marking_size := (Net.size_move _ _ _).trans h.marking_size
  readiness_size := by
    rw [LiveNet.fired, Table.size_modify]
    exact h.readiness_size
  mark_le := h.mark_le.move t
  remaining_le u := by
    rw [ready_fired]
    split
    · rename_i htu
      rw [← htu.1]
      exact Nat.le_refl _
    · exact h.remaining_le u
  guardHolds u hu := by
    rw [isEnabled_fired] at hu
    rw [ready_fired]
    split
    · exact h.guardHolds u hu
    · exact h.guardHolds u hu

theorem override (h : live.Valid) {m : Marking} (hsize : m.size = live.marking.size)
    (hmark : live.net.WithinCapacity m) : Valid { live with marking := m } :=
  ⟨hsize.trans h.marking_size, h.readiness_size, hmark, h.remaining_le, h.guardHolds⟩

theorem restartPlaces (h : live.Valid) (hnet : live.net.Sound) : live.restartPlaces.Valid :=
  ⟨by simp [LiveNet.restartPlaces, Net.initialMarking, Table.size], h.readiness_size,
    hnet.initialMarking, h.remaining_le, h.guardHolds⟩

theorem restartTransitions (h : live.Valid) : live.restartTransitions.Valid := by
  refine ⟨h.marking_size, (Table.size_map _ _).trans h.readiness_size, h.mark_le, fun t => ?_,
    fun t ht => ?_⟩
  · rw [ready_restartTransitions]
    exact Nat.zero_le _
  · rw [isEnabled, ready_restartTransitions] at ht
    exact absurd ht Bool.false_ne_true

end Valid

end LiveNet

end AutomationNet
