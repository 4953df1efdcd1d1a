import AutomationNet.Proofs.Net.Flow

/-!
# Changes that commute

What happens to two transitions can change places if neither sees what the other leaves. An update
looks at the marks and touches the readiness of its own transition only, so that this is so for any
two updates. A firing moves tokens, so that two firings must keep to places of their own.

* `Table.modify_comm` : changes of two elements
* `LiveNet.update_comm` : updates of two transitions
* `Net.Apart`, `Net.Independent` : transitions that move no tokens where others are attached
* `Net.Apart.arcsEnabled_move` : a firing says nothing about the arcs of a transition apart from it
* `Net.Apart.move_comm`, `LiveNet.fired_comm` : firings of two transitions that are apart
* `LiveNet.foldl_fired_perm` : **independent transitions leave the same state in every order**
-/

namespace AutomationNet

theorem Table.modify_comm {κ α : Type} (table : Table κ α) {r s : Ref κ} (h : r ≠ s)
    (f g : α → α) : (table.modify r f).modify s g = (table.modify s g).modify r f := by
  refine Table.ext_get? fun q => ?_
  simp only [get?_modify]
  by_cases hr : r = q
  · subst hr
    rw [if_neg h.symm, if_pos rfl, if_neg h.symm, if_pos rfl]
  · rw [if_neg hr, if_neg hr]

namespace Net

variable {net : Net} {t u : Ref Transition}

/-- The first transition moves no tokens at the places to which the second is attached. -/
def Apart (net : Net) (t u : Ref Transition) : Prop :=
  ∀ mover ∈ net.movers t, ∀ arc ∈ net.attached u, mover.place ≠ arc.place

/-- None of some transitions moves tokens at a place to which another one of them is attached. -/
def Independent (net : Net) (ts : List (Ref Transition)) : Prop :=
  ∀ t ∈ ts, ∀ u ∈ ts, t ≠ u → net.Apart t u

instance (net : Net) (ts : List (Ref Transition)) : Decidable (net.Independent ts) :=
  inferInstanceAs (Decidable (∀ t ∈ ts, ∀ u ∈ ts, t ≠ u →
    ∀ mover ∈ net.movers t, ∀ arc ∈ net.attached u, mover.place ≠ arc.place))

theorem mem_attached_of_mem_movers {arc : Arc} (h : arc ∈ net.movers t) : arc ∈ net.attached t :=
  List.mem_append_left _ (List.mem_append_left _ h)

theorem Independent.mono {ts fewer : List (Ref Transition)} (h : net.Independent ts)
    (hfewer : fewer ⊆ ts) : net.Independent fewer :=
  fun t ht u hu => h t (hfewer ht) u (hfewer hu)

namespace Apart

theorem arcEnabled_move (h : net.Apart t u) (m : Marking) {arc : Arc}
    (harc : arc ∈ net.attached u) : net.arcEnabled (net.move m t) arc = net.arcEnabled m arc := by
  have hmark : (net.move m t).mark arc.place = m.mark arc.place :=
    mark_move_of_not_mem fun mover hmover => h mover hmover arc harc
  rw [arcEnabled, arcEnabled, hmark]

theorem arcsEnabled_move (h : net.Apart t u) (m : Marking) :
    net.arcsEnabled (net.move m t) u = net.arcsEnabled m u := by
  rw [Bool.eq_iff_iff, arcsEnabled, arcsEnabled, List.all_eq_true, List.all_eq_true]
  exact forall₂_congr fun arc harc => by rw [h.arcEnabled_move m harc]

/-- What two firings move is at different places. -/
theorem move_comm (h : net.Apart t u) (m : Marking) :
    net.move (net.move m t) u = net.move (net.move m u) t := by
  refine Table.ext_get? fun r => ?_
  by_cases ht : ∀ mover ∈ net.movers t, mover.place ≠ r
  · rw [get?_move_of_not_mem ht, get?_move net _ u, get?_move_of_not_mem ht, get?_move net m u]
  · have hu : ∀ mover ∈ net.movers u, mover.place ≠ r := by
      rintro mover hmover rfl
      exact ht fun other hother => h other hother mover (mem_attached_of_mem_movers hmover)
    rw [get?_move_of_not_mem hu, get?_move net _ t, get?_move net _ t, get?_move_of_not_mem hu]

end Apart

end Net

namespace LiveNet

variable {t u : Ref Transition}

theorem update_comm (live : LiveNet) (t u : Ref Transition) (step : Duration)
    (inputs : Guard.Snapshot) :
    (live.update t step inputs).update u step inputs =
      (live.update u step inputs).update t step inputs := by
  by_cases htu : t = u
  · rw [htu]
  · exact (LiveNet.mk.injEq ..).mpr ⟨rfl, rfl, live.readiness.modify_comm htu _ _⟩

theorem fired_comm (live : LiveNet) (htu : t ≠ u) (h : live.net.Apart t u) :
    (live.fired t).fired u = (live.fired u).fired t :=
  (LiveNet.mk.injEq ..).mpr ⟨rfl, h.move_comm live.marking, live.readiness.modify_comm htu _ _⟩

/-- **Independent transitions leave the same state in every order.** -/
theorem foldl_fired_perm (live : LiveNet) {ts ts' : List (Ref Transition)}
    (h : live.net.Independent ts) (hperm : ts.Perm ts') :
    ts.foldl fired live = ts'.foldl fired live := by
  induction hperm generalizing live with
  | nil => rfl
  | cons t _ ih => exact ih (live.fired t) (h.mono (List.subset_cons_self t _))
  | swap t u ts =>
    have hswap : (live.fired u).fired t = (live.fired t).fired u := by
      by_cases hut : u = t
      · rw [hut]
      · exact live.fired_comm hut (h u List.mem_cons_self t (List.mem_cons_of_mem u
          List.mem_cons_self) hut)
    rw [List.foldl_cons, List.foldl_cons, List.foldl_cons, List.foldl_cons, hswap]
  | trans hperm _ ih ih' => exact (ih live h).trans (ih' live (h.mono hperm.symm.subset))

end LiveNet

end AutomationNet
