import AutomationNet.Proofs.Simulation.Firings

/-!
# Reports as accounts of a tick

A report tells the marks twice: as the places that differ from the start of the tick, and as the
firings that have moved their tokens. Both lead from the marks before the tick to those after it.

* `Net.overlay` : a marking with some marks replaced
* `Net.redo` : a marking after the tokens of a reported firing have been moved
* `TickReport.Complete` : all that a report of a tick tells
* `Session.report_complete` : **every tick is told in full**
-/

namespace AutomationNet

theorem Marking.ext_mark {m m' : Marking} (hsize : m.size = m'.size) (h : ∀ r, m.mark r = m'.mark r) :
    m = m' := by
  refine Table.ext_get? fun r => ?_
  by_cases hr : r.index < m.size
  · have := h r
    rw [mark, mark, Table.get?_eq_some hr, Table.get?_eq_some (hsize ▸ hr)] at this
    rw [Table.get?_eq_some hr, Table.get?_eq_some (hsize ▸ hr)]
    exact congrArg some this
  · rw [Table.get?_eq_none hr, Table.get?_eq_none (hsize ▸ hr)]

namespace Net

def overlay (net : Net) (m : Marking) (marks : List (ElementId × Nat)) : Marking :=
  marks.foldl (fun m entry =>
    match net.placeRef? entry.1 with
    | some r => m.set r entry.2
    | none => m) m

/-- A marking after the tokens of a reported firing have been moved: those of the input arcs it
lists, then those of the output arcs. -/
def redo (net : Net) (m : Marking) (firing : Firing) : Marking :=
  (firing.outputArcs.filterMap net.arc?).foldl net.produce
    ((firing.inputArcs.filterMap net.arc?).foldl net.consume m)

end Net

/-- What the report of a tick tells of the marks before and after it, and of its firings. -/
structure TickReport.Complete (net : Net) (mode : FiringMode) (earlier later : Marking)
    (report : TickReport) : Prop where
  changed_iff : ∀ id mark, (id, mark) ∈ report.changed ↔
    ∃ r place, net.places.get? r = some place ∧ place.id = id ∧ later.mark r = mark ∧
      later.mark r ≠ earlier.mark r
  changed_nodup : (report.changed.map (·.1)).Nodup
  overlay_changed : net.overlay earlier report.changed = later
  redo_fired : report.fired.foldl net.redo earlier = later
  fired_nodup : report.firedIds.Nodup
  /-- A firing lists all its arcs in the order of their declaration. -/
  fired_arcs : ∀ firing ∈ report.fired, ∃ t transition, net.transitions.get? t = some transition ∧
    firing.transition = transition.id ∧
    firing.inputArcs = (net.arcs.toList.filter fun arc =>
      arc.transition = t ∧ arc.kind = .input).map (·.id) ∧
    firing.outputArcs = (net.arcs.toList.filter fun arc =>
      arc.transition = t ∧ arc.kind = .output).map (·.id)
  fired_classic : mode = .classic → report.fired.length ≤ 1

/-! ## Marks that differ -/

namespace Session

variable {s : Session} {net : Net} {order : List (Ref Transition)} {values : InputValues}
  {live : LiveNet} {earlier : Marking}

def changedPlaces (live : LiveNet) (earlier : Marking) : List (Ref Place × Place) :=
  live.net.places.enumerate.filter fun entry => live.marking.mark entry.1 ≠ earlier.mark entry.1

theorem changedMarks_eq (live : LiveNet) (earlier : Marking) :
    changedMarks live earlier =
      (changedPlaces live earlier).map fun entry => (entry.2.id, live.marking.mark entry.1) := by
  unfold changedMarks changedPlaces
  induction live.net.places.enumerate with
  | nil => rfl
  | cons entry entries ih =>
    by_cases hsame : live.marking.mark entry.1 = earlier.mark entry.1
    · simp [hsame, ih]
    · simp [hsame, ih]

theorem mem_changedPlaces {r : Ref Place} {place : Place} :
    (r, place) ∈ changedPlaces live earlier ↔
      live.net.places.get? r = some place ∧ live.marking.mark r ≠ earlier.mark r := by
  rw [changedPlaces, List.mem_filter, Table.mem_enumerate, decide_eq_true_eq]

theorem nodup_changedMarks (hids : live.net.ids.Nodup) :
    ((changedMarks live earlier).map (·.1)).Nodup := by
  have hplaces : live.net.places.enumerate.map (fun entry => entry.2.id) =
      live.net.places.toList.map (·.id) := by
    refine List.ext_getElem? fun i => ?_
    rw [List.getElem?_map, List.getElem?_map, Table.getElem?_enumerate, Option.map_map]
    rfl
  rw [changedMarks_eq, List.map_map]
  refine List.Sublist.nodup ?_ (List.nodup_append.mp (List.nodup_append.mp hids).1).1
  rw [← hplaces]
  exact List.filter_sublist.map _

theorem mark_foldl_set {later : Marking} {entries : List (Ref Place × Place)} {m : Marking}
    {r : Ref Place} (hsize : ∀ entry ∈ entries, entry.1.index < m.size)
    (h : m.mark r = later.mark r ∨ ∃ entry ∈ entries, entry.1 = r) :
    Marking.mark (entries.foldl (fun m entry => m.set entry.1 (later.mark entry.1)) m) r =
      later.mark r := by
  induction entries generalizing m with
  | nil =>
    rcases h with h | ⟨_, hmem, _⟩
    · exact h
    · exact absurd hmem List.not_mem_nil
  | cons entry entries ih =>
    have hlt := hsize entry List.mem_cons_self
    refine ih (fun other hother => ?_) ?_
    · rw [Table.size_set]
      exact hsize other (List.mem_cons_of_mem _ hother)
    · rw [Marking.mark_set]
      by_cases hr : entry.1 = r
      · exact .inl (by rw [if_pos ⟨hr, hlt⟩, hr])
      · rw [if_neg fun hr' => hr hr'.1]
        rcases h with h | ⟨other, hother, rfl⟩
        · exact .inl h
        · rcases List.mem_cons.mp hother with rfl | hother
          · exact absurd rfl hr
          · exact .inr ⟨other, hother, rfl⟩

/-- Replacing the changed marks leads from the earlier marks to the later ones. -/
theorem overlay_changedMarks (hnet : live.net.Sound)
    (hsize : live.marking.size = live.net.places.size) (hearlier : earlier.size = live.marking.size) :
    live.net.overlay earlier (changedMarks live earlier) = live.marking := by
  have hfold : live.net.overlay earlier (changedMarks live earlier) =
      (changedPlaces live earlier).foldl (fun m entry => m.set entry.1 (live.marking.mark entry.1))
        earlier := by
    rw [changedMarks_eq, Net.overlay, List.foldl_map]
    refine List.foldl_ext _ _ _ fun m entry hentry => ?_
    rw [Net.placeRef?_eq hnet (mem_changedPlaces.mp hentry).1]
  have hlt : ∀ entry ∈ changedPlaces live earlier, entry.1.index < earlier.size := by
    intro entry hentry
    rw [hearlier, hsize]
    exact (List.getElem?_eq_some_iff.mp (mem_changedPlaces.mp hentry).1).1
  rw [hfold]
  refine Marking.ext_mark ?_ fun r => mark_foldl_set hlt ?_
  · exact (Net.size_foldl (fun m _ => Table.size_set m _ _) _ _).trans hearlier
  · by_cases hsame : earlier.mark r = live.marking.mark r
    · exact .inl hsame
    · -- Marks that differ are marks of a place.
      have hr : r.index < live.net.places.size := by
        by_contra hr
        refine hsame ?_
        rw [Marking.mark, Marking.mark, Table.get?_eq_none (by rwa [hearlier, hsize]),
          Table.get?_eq_none (by rwa [hsize])]
      exact .inr ⟨_, mem_changedPlaces.mpr ⟨Table.get?_eq_some hr, Ne.symm hsame⟩, rfl⟩

end Session

/-! ## Firings that are told -/

namespace LiveNet

theorem redo_firing (live : LiveNet) (hids : live.net.ids.Nodup) (m : Marking) (t : Ref Transition) :
    live.net.redo m (live.firing t) = live.net.move m t := by
  rw [Net.redo, firing, Net.filterMap_arc? hids, Net.filterMap_arc? hids]
  rfl

theorem foldl_redo_firing (live : LiveNet) (hids : live.net.ids.Nodup) (m : Marking)
    (fires : List (Ref Transition)) :
    (fires.map live.firing).foldl live.net.redo m = fires.foldl live.net.move m := by
  rw [List.foldl_map]
  exact List.foldl_ext _ _ _ fun m t _ => live.redo_firing hids m t

end LiveNet

namespace Session

variable {s : Session} {net : Net} {order : List (Ref Transition)} {values : InputValues}

theorem length_fired_classic (hmode : s.policy.mode = .classic) (order : List (Ref Transition))
    (values : InputValues) : (s.log order values).fired.length ≤ 1 := by
  rcases s.fired_sublist order values with ⟨-, hsub⟩ | ⟨hother, -⟩
  · exact hsub.length_le.trans (Policy.length_chosen hmode)
  · rw [hmode] at hother
    cases hother

theorem Consistent.complete (h : s.Consistent) (hsound : s.net.Sound) (hids : s.net.ids.Nodup)
    (horder : order.Nodup) {tick : Tick} (hyields : s.Yields order values tick) :
    tick.report.Complete s.net s.policy.mode s.live.marking tick.session.live.marking := by
  have hnet : tick.session.live.net = s.net := hyields.course.net_eq
  have hvalid := hyields.course.valid h.live
  have hids' : tick.session.live.net.ids.Nodup := hnet ▸ hids
  have hchanged : tick.report.changed = changedMarks tick.session.live s.live.marking := by
    rw [hyields.report]
    rfl
  have hfired : tick.report.fired = (s.log order values).fired.map s.live.firing := by
    rw [hyields.report]
    rfl
  refine ⟨fun id mark => ?_, ?_, ?_, ?_, ?_, fun firing hfiring => ?_, fun hmode => ?_⟩
  · rw [hchanged, changedMarks_eq, List.mem_map, ← hnet]
    constructor
    · rintro ⟨⟨r, place⟩, hentry, heq⟩
      obtain ⟨hid, hmark⟩ := Prod.mk.inj heq
      obtain ⟨hplace, hdiffer⟩ := mem_changedPlaces.mp hentry
      exact ⟨r, place, hplace, hid, hmark, hdiffer⟩
    · rintro ⟨r, place, hplace, hid, hmark, hdiffer⟩
      exact ⟨(r, place), mem_changedPlaces.mpr ⟨hplace, hdiffer⟩, Prod.ext hid hmark⟩
  · rw [hchanged]
    exact nodup_changedMarks hids'
  · rw [hchanged, ← hnet]
    refine overlay_changedMarks (hnet ▸ hsound) hvalid.marking_size ?_
    rw [h.live.marking_size, hvalid.marking_size, hnet]
    rfl
  · rw [hfired, hyields.live]
    exact (s.live.foldl_redo_firing hids _ _).trans (s.live.marking_run (s.plan order)).symm
  · rw [TickReport.firedIds, hfired, List.map_map]
    refine (List.nodup_map_iff_inj_on (h.fired_nodup horder values)).mpr fun t ht u hu hid => ?_
    exact Net.transition_eq_of_id hids (h.fired_lt hyields ht) (h.fired_lt hyields hu) hid
  · rw [hfired, List.mem_map] at hfiring
    obtain ⟨t, ht, rfl⟩ := hfiring
    have hget : s.net.transitions.get? t = some (s.net.transition t) :=
      Net.get?_transition (h.fired_lt hyields ht)
    exact ⟨t, _, hget, rfl, by rw [← hsound.arcsOf_eq]; rfl, by rw [← hsound.arcsOf_eq]; rfl⟩
  · rw [hfired, List.length_map]
    exact length_fired_classic hmode order values

/-- **Every tick is told in full.** -/
theorem report_complete {description : NetDescription}
    (hnet : Net.assemble description = .ok net) (h : Reachable net s)
    (horder : order.Perm net.order) (values : InputValues) :
    (Duration.maxDuration < s.time + s.step → s.runTick order values = .error .clockOverflow) ∧
    (s.time + s.step ≤ Duration.maxDuration → ∃ tick, s.runTick order values = .ok tick ∧
      tick.report.Complete net s.policy.mode s.live.marking tick.session.live.marking) := by
  have hsound := Net.assemble_sound hnet
  obtain ⟨rfl, hs⟩ := h.consistent hsound
  have hnodup : order.Nodup := horder.nodup_iff.mpr hsound.order_nodup
  rcases runTick_cases hs.chosen_enabled order values with
    ⟨hover, herror⟩ | ⟨hclock, tick, hok, hyields⟩
  · exact ⟨fun _ => herror, fun hclock => absurd hover (Nat.not_lt.mpr hclock)⟩
  · exact ⟨fun hover => absurd hover (Nat.not_lt.mpr hclock),
      fun _ => ⟨tick, hok, hs.complete hsound (Net.assemble_ids_nodup hnet) hnodup hyields⟩⟩

/-- The tick of the rivals tells how both parts have been taken. -/
theorem rivals_report :
    ∃ tick, rivalsChosen.runTick [⟨1⟩, ⟨0⟩] [] = .ok tick ∧ tick.report.changed = [("P1", 0)] ∧
      tick.report.Complete rivalsNet .visObj ⟨[2]⟩ ⟨[0]⟩ := by
  obtain ⟨-, hclock⟩ :=
    report_complete rivals_assembled rivalsChosen_reachable (List.Perm.swap _ _ []) []
  obtain ⟨tick, hrun, hcomplete⟩ := hclock (by decide)
  obtain ⟨hmarking, hchanged⟩ :
      tick.session.live.marking = ⟨[0]⟩ ∧ tick.report.changed = [("P1", 0)] := by
    have hvalue : (rivalsChosen.runTick [⟨1⟩, ⟨0⟩] []).map
        (fun tick => (tick.session.live.marking, tick.report.changed)) =
          .ok (⟨[0]⟩, [("P1", 0)]) := by
      decide +kernel
    rw [hrun] at hvalue
    exact Prod.mk.inj (Except.ok.inj hvalue)
  rw [hmarking] at hcomplete
  exact ⟨tick, hrun, hchanged, hcomplete⟩

end Session

end AutomationNet
