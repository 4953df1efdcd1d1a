import AutomationNet.Proofs.Simulation.Delay
import AutomationNet.Proofs.Simulation.Firings

/-!
# What a firing rests on

What was chosen at the end of a tick fires in the next, if its arcs allow it when its turn comes. In
between marks may be overridden, and under `visObj` the firings before it have moved their tokens. An
arc may thus have been disabled when the tick began, but only at a place where both have happened.

* `Session.Settled` : sessions that nothing has overridden since their last tick
* `Session.Overrides` : from one session to another by overrides of marks
* `Session.Reachable.settled` : every session comes from a settled one by overrides
* `Session.Settled.arcsEnabled` : in a settled session what was chosen has its arcs enabled
* `Session.fired_arcsEnabled` : **the arcs of what fires were enabled when it was chosen, are enabled in
  its turn, and were enabled when the tick began, except where an override took tokens away that an
  earlier firing of the tick has brought back**
-/

namespace AutomationNet

namespace LiveNet

variable {step : Duration} {inputs : Guard.Snapshot}

/-- Where an arc is disabled in one of two states but not in the other, a mark has changed. -/
theorem mark_ne_of_arcsEnabled {live live' : LiveNet} {t : Ref Transition} {arc : Arc}
    (hnet : live.net = live'.net) (harc : arc ∈ live.net.attached t)
    (hoff : live.arcEnabled arc = false) (hon : live'.arcsEnabled t = true) :
    live.marking.mark arc.place ≠ live'.marking.mark arc.place := by
  intro hsame
  have harc' := List.all_eq_true.mp hon arc (hnet ▸ harc)
  rw [Net.arcEnabled, ← hsame, ← hnet] at harc'
  exact Bool.false_ne_true (hoff.symm.trans harc')

/-- A mark that has changed without an override was moved by a firing. -/
theorem exists_mover {live : LiveNet} {log : Log} {r : Ref Place} (hlog : ∀ m, .overridden m ∉ log)
    (h : (live.replay log).marking.mark r ≠ live.marking.mark r) :
    ∃ u ∈ log.fired, ∃ arc ∈ live.net.movers u, arc.place = r := by
  induction log generalizing live with
  | nil => exact absurd rfl h
  | cons happening log ih =>
    have hrest : ∀ m, .overridden m ∉ log := fun m hmem => hlog m (List.mem_cons_of_mem _ hmem)
    cases happening with
    | updated t step arcsHold guardHolds =>
      let updated := live.after (.updated t step arcsHold guardHolds)
      have hlater : (updated.replay log).marking.mark r ≠ updated.marking.mark r := h
      obtain ⟨v, hv, hmover⟩ := ih hrest hlater
      exact ⟨v, hv, hmover⟩
    | overridden m => exact absurd List.mem_cons_self (hlog m)
    | fired u =>
      by_cases hu : ∃ arc ∈ live.net.movers u, arc.place = r
      · exact ⟨u, List.mem_cons_self, hu⟩
      · have hsame : (live.fired u).marking.mark r = live.marking.mark r :=
          Net.mark_move_of_not_mem fun arc harc hplace => hu ⟨arc, harc, hplace⟩
        rw [← hsame] at h
        obtain ⟨v, hv, hmover⟩ := ih hrest h
        exact ⟨v, List.mem_cons_of_mem u hv, hmover⟩

end LiveNet

namespace Session

variable {s s' ended : Session} {net : Net} {order : List (Ref Transition)} {values : InputValues}
  {t : Ref Transition}

/-! ## Between two ticks -/

/-- The states of the sessions of a net right after a tick, or at their start. -/
inductive Settled (net : Net) : Session → Prop where
  | start (mode : FiringMode) (initial : InputValues) (step : Duration) :
      Settled net (.start net mode initial step)
  | tick {s : Session} (h : Reachable net s) {order : List (Ref Transition)} {values : InputValues}
      {tick : Tick} (horder : order.Perm net.order) (hrun : s.runTick order values = .ok tick) :
      Settled net tick.session
  | exit {s : Session} (h : Reachable net s) : Settled net s.exit

/-- From one session to another by overrides of marks. -/
inductive Overrides (ended : Session) : Session → Prop where
  | refl : Overrides ended ended
  | setMark {s s' : Session} (h : Overrides ended s) {place : ElementId} {mark : Int}
      (hset : s.setMark place mark = .ok s') : Overrides ended s'
  | addToken {s s' : Session} (h : Overrides ended s) {place : ElementId}
      (hadd : s.addToken place = .ok s') : Overrides ended s'

theorem Reachable.settled (h : Reachable net s) : ∃ ended, Settled net ended ∧ ended.Overrides s := by
  induction h with
  | start mode initial step => exact ⟨_, .start mode initial step, .refl⟩
  | tick h horder hrun => exact ⟨_, .tick h horder hrun, .refl⟩
  | setMark _ hset ih =>
    obtain ⟨ended, hended, hover⟩ := ih
    exact ⟨ended, hended, hover.setMark hset⟩
  | addToken _ hadd ih =>
    obtain ⟨ended, hended, hover⟩ := ih
    exact ⟨ended, hended, hover.addToken hadd⟩
  | exit h => exact ⟨_, .exit h, .refl⟩

theorem Settled.reachable (h : Settled net s) : Reachable net s := by
  cases h with
  | start mode initial step => exact .start mode initial step
  | tick h horder hrun => exact h.tick horder hrun
  | exit h => exact h.exit

theorem policy_setMark {place : ElementId} {mark : Int} (h : s.setMark place mark = .ok s') :
    s'.policy = s.policy := by
  obtain ⟨_, -, rfl⟩ := setMark_eq_ok.mp h
  rfl

theorem Overrides.policy_eq (h : ended.Overrides s) : s.policy = ended.policy := by
  induction h with
  | refl => rfl
  | setMark _ hset ih => exact (policy_setMark hset).trans ih
  | addToken _ hadd ih =>
    obtain ⟨_, hset⟩ := setMark_of_addToken hadd
    exact (policy_setMark hset).trans ih

/-- What a tick chooses has its arcs enabled when the tick ends: the choice rests on the last updates,
and they on the marks that all firings of the tick have left. -/
theorem Yields.arcsEnabled {tick : Tick} (h : s.Yields order values tick) (horder : order.Nodup)
    (ht : t ∈ tick.session.policy.chosen) : tick.session.live.arcsEnabled t = true := by
  rw [h.policy] at ht
  obtain ⟨hmem, hon, hvisits⟩ := mem_chosen_choose ht
  exact (h.of_isEnabled hvisits horder hmem hon).1

theorem Settled.arcsEnabled (h : Settled net s) (hnet : net.Sound) (ht : t ∈ s.policy.chosen) :
    s.live.arcsEnabled t = true := by
  cases h with
  | start mode _ _ => cases mode <;> exact absurd ht List.not_mem_nil
  | tick h horder hrun =>
    have hyields := (h.consistent hnet).2.yields hrun
    exact hyields.arcsEnabled (horder.nodup_iff.mpr hnet.order_nodup) ht
  | @exit s _ =>
    rw [chosen_exit] at ht
    exact absurd ht List.not_mem_nil

/-! ## Firings of a tick -/

theorem fired_of_choice (hmode : s.policy.mode ≠ .automation) {before after : Log}
    (h : s.log order values = before ++ .fired t :: after) :
    ∃ pre post, s.policy.chosen = pre ++ t :: post ∧
      ∃ fires : List (Ref Transition), fires.Sublist pre ∧ before = fires.map .fired := by
  obtain ⟨earlier, move, later, hmoves, rfl, hmove⟩ := LiveNet.log_eq_append_fired h
  rcases s.policy.visits_cases with ⟨-, hvisits⟩ | ⟨hscan, -⟩
  · rw [plan, hvisits] at hmoves
    obtain ⟨pre, post, hsplit, rfl⟩ := Policy.eq_append_of_choice hmove hmoves
    exact ⟨pre, post, hsplit, LiveNet.log_fireChosen _ _ _ pre⟩
  · exact absurd hscan hmode

/-- What a firing of a tick rests on, given the session at the end of the tick before, the one at the
beginning of the tick, and what has come before it in the tick. -/
structure RestsOn (ended s : Session) (before : Log) (t : Ref Transition) : Prop where
  chosen : ended.live.arcsEnabled t = true
  turn : (s.live.replay before).arcsEnabled t = true
  /-- If an arc was disabled when the tick began, then the mark of its place was overridden since the
  tick before, and an earlier firing of the tick has moved tokens there. -/
  began : ∀ arc ∈ s.net.attached t, s.live.arcEnabled arc = false →
    s.policy.mode = .visObj ∧ s.live.marking.mark arc.place ≠ ended.live.marking.mark arc.place ∧
    ∃ u ∈ before.fired, ∃ mover ∈ s.net.movers u, mover.place = arc.place

/-- Unless both can have happened, the arcs were enabled when the tick began. -/
theorem RestsOn.arcsEnabled {before : Log} (h : ended.RestsOn s before t)
    (hcase : s.policy.mode = .classic ∨ ended = s) : s.live.arcsEnabled t = true := by
  refine List.all_eq_true.mpr fun arc harc => ?_
  by_contra hoff
  obtain ⟨hmode, hdiffer, -⟩ := h.began arc harc (Bool.eq_false_iff.mpr hoff)
  rcases hcase with hclassic | rfl
  · rw [hclassic] at hmode
    cases hmode
  · exact hdiffer rfl

/-- Every firing of a tick rests on its choice, if nothing but overrides lies between. -/
theorem restsOn_of_fired (hnet : net.Sound) (hended : Settled net ended) (hover : ended.Overrides s)
    (hs : s.net = net) (hmode : s.policy.mode ≠ .automation) {tick : Tick}
    (hyields : s.Yields order values tick) {before after : Log}
    (hlog : s.log order values = before ++ .fired t :: after) : ended.RestsOn s before t := by
  obtain ⟨hcourse, hcan⟩ := hyields.course.canFire_of_fired hlog
  rw [LiveNet.canFire, Bool.and_eq_true] at hcan
  obtain ⟨pre, post, hchosen, fires, hsub, rfl⟩ := fired_of_choice hmode hlog
  have hon : ended.live.arcsEnabled t = true :=
    hended.arcsEnabled hnet (by simp [← hover.policy_eq, hchosen])
  refine ⟨hon, hcan.2, fun arc harc hoff => ?_⟩
  have hdiffer := LiveNet.mark_ne_of_arcsEnabled hcourse.net_eq.symm harc hoff hcan.2
  have hfires : ∀ m, .overridden m ∉ fires.map Happening.fired := fun m => by simp
  obtain ⟨u, hu, hmover⟩ := LiveNet.exists_mover hfires hdiffer.symm
  have hended_net := (hended.reachable.consistent hnet).1
  refine ⟨?_, LiveNet.mark_ne_of_arcsEnabled (hs.trans hended_net.symm) harc hoff hon, u, hu, hmover⟩
  cases hpolicy : s.policy.mode with
  | automation => exact absurd hpolicy hmode
  | visObj => rfl
  | classic =>
    -- Nothing is chosen before a single candidate.
    have hlength := Policy.length_chosen hpolicy
    rw [hchosen, List.length_append, List.length_cons] at hlength
    rw [Log.fired_map_fired] at hu
    have hpre := List.length_pos_of_mem (hsub.subset hu)
    omega

/-! ### A relay -/

/-- One transition moves a part on, another takes it away. -/
def relay : NetDescription where
  places := [⟨"P1", "first", .int, "1", []⟩, ⟨"P2", "second", .int, "1", []⟩]
  transitions := [{ id := "T1", name := "fill" }, { id := "T2", name := "drain" }]
  arcs := [⟨"A1", "P1", "T1", .input, "1", []⟩, ⟨"A2", "P2", "T1", .output, "1", []⟩,
    ⟨"A3", "P2", "T2", .input, "1", []⟩]

def relayNet : Net where
  places := ⟨[⟨"P1", "first", .int, 1⟩, ⟨"P2", "second", .int, 1⟩]⟩
  transitions := ⟨[⟨"T1", "fill", {}, 0, .zero⟩, ⟨"T2", "drain", {}, 0, .zero⟩]⟩
  arcs := ⟨[⟨"A1", ⟨0⟩, ⟨0⟩, .input, 1⟩, ⟨"A2", ⟨1⟩, ⟨0⟩, .output, 1⟩, ⟨"A3", ⟨1⟩, ⟨1⟩, .input, 1⟩]⟩
  attachments := ⟨[{ inputs := [⟨0⟩], outputs := [⟨1⟩] }, { inputs := [⟨2⟩] }]⟩
  placeKeys := ⟨[("P2", ⟨1⟩), ("P1", ⟨0⟩)]⟩
  transitionKeys := ⟨[("T2", ⟨1⟩), ("T1", ⟨0⟩)]⟩
  order := [⟨0⟩, ⟨1⟩]

/-- After one tick both transitions are chosen. -/
def relayChosen : Session where
  live := ⟨relayNet, ⟨[1, 1]⟩, ⟨[⟨0, true, true⟩, ⟨0, true, true⟩]⟩⟩
  policy := .visObj [⟨0⟩, ⟨1⟩]
  history := []
  step := 10000000
  tick := 1
  time := 10000000

/-- Before the next tick the second place is emptied. -/
def relayEmptied : Session :=
  { relayChosen with live := { relayChosen.live with marking := ⟨[1, 0]⟩ } }

theorem relay_assembled : Net.assemble relay = .ok relayNet :=
  Net.assemble_eq_ok (by decide +kernel) (by decide +kernel)

theorem relay_settled : Settled relayNet relayChosen := by
  have hrun : (Session.start relayNet .visObj [] 10000000).runTick relayNet.order [] =
      .ok ⟨relayChosen, Session.report relayChosen.live ⟨[1, 1]⟩ [] 1 10000000, [.tick 1], []⟩ := by
    decide +kernel
  exact .tick (.start .visObj [] 10000000) (.refl _) hrun

theorem relay_emptied : relayChosen.setMark "P2" 0 = .ok relayEmptied := by decide +kernel

theorem relay_reachable : Reachable relayNet relayEmptied :=
  relay_settled.reachable.setMark relay_emptied

theorem relay_runTick :
    ∃ tick, relayEmptied.runTick [⟨0⟩, ⟨1⟩] [] = .ok tick ∧ tick.report.firedIds = ["T1", "T2"] := by
  have hvalue : (relayEmptied.runTick [⟨0⟩, ⟨1⟩] []).map (·.report.firedIds) = .ok ["T1", "T2"] := by
    decide +kernel
  cases hrun : relayEmptied.runTick [⟨0⟩, ⟨1⟩] [] with
  | error e =>
    rw [hrun] at hvalue
    cases hvalue
  | ok tick =>
    rw [hrun] at hvalue
    exact ⟨tick, rfl, Except.ok.inj hvalue⟩

/-- The drain fires although its place had been emptied before the tick. -/
theorem relay_not_enabled :
    ¬ ∀ (description : NetDescription) (net : Net) (s : Session) (order : List (Ref Transition))
        (values : InputValues) (tick : Tick),
      Net.assemble description = .ok net → Reachable net s → s.policy.mode ≠ .automation →
      order.Perm net.order → s.runTick order values = .ok tick →
      ∀ t, t.index < net.transitions.size → (net.transition t).id ∈ tick.report.firedIds →
        s.live.arcsEnabled t = true := by
  intro h
  obtain ⟨tick, hrun, hfired⟩ := relay_runTick
  have hmem : (relayNet.transition ⟨1⟩).id ∈ tick.report.firedIds := by
    rw [hfired]
    decide
  have hon := h relay relayNet relayEmptied _ [] tick relay_assembled relay_reachable nofun (.refl _)
    hrun ⟨1⟩ (by decide) hmem
  have hoff : relayEmptied.live.arcsEnabled ⟨1⟩ = false := by decide +kernel
  exact Bool.false_ne_true (hoff.symm.trans hon)

/-! ### Results -/

/-- **What a firing rests on.** Under a policy that chooses, all arcs of what fires were enabled
when it was chosen and are so in its turn. When the tick began an arc may have been disabled, but
only at a place that was overridden since the choice and at which an earlier firing of the tick has
moved tokens. -/
theorem fired_arcsEnabled {description : NetDescription}
    (hnet : Net.assemble description = .ok net) (h : Reachable net s)
    (hmode : s.policy.mode ≠ .automation) {tick : Tick}
    (hrun : s.runTick order values = .ok tick) :
    tick.report.fired = (s.log order values).fired.map s.live.firing ∧
    (∃ ended, Settled net ended ∧ ended.Overrides s) ∧
    (∀ ended, Settled net ended → ended.Overrides s →
      ∀ before t after, s.log order values = before ++ .fired t :: after →
        ended.RestsOn s before t) ∧
    (s.policy.mode = .classic ∨ Settled net s → ∀ t, t.index < net.transitions.size →
      (net.transition t).id ∈ tick.report.firedIds → s.live.arcsEnabled t = true) := by
  have hsound := Net.assemble_sound hnet
  obtain ⟨rfl, hs⟩ := h.consistent hsound
  have hyields := hs.yields hrun
  have hrests : ∀ ended, Settled s.net ended → ended.Overrides s →
      ∀ before t after, s.log order values = before ++ .fired t :: after →
        ended.RestsOn s before t := fun ended hended hover before t after hlog =>
    restsOn_of_fired hsound hended hover rfl hmode hyields hlog
  refine ⟨by rw [hyields.report]; rfl, h.settled, hrests, fun hcase t ht hid => ?_⟩
  have hfired := (hs.mem_firedIds (Net.assemble_ids_nodup hnet) hyields ht).mp hid
  obtain ⟨before, after, hlog⟩ := Log.exists_of_mem_fired hfired
  rcases hcase with hclassic | hsettled
  · obtain ⟨ended, hended, hover⟩ := h.settled
    exact (hrests ended hended hover before t after hlog).arcsEnabled (.inl hclassic)
  · exact (hrests s hsettled .refl before t after hlog).arcsEnabled (.inr rfl)

theorem relay_rests :
    relayEmptied.live.arcsEnabled ⟨1⟩ = false ∧
      relayChosen.RestsOn relayEmptied [.fired ⟨0⟩] ⟨1⟩ := by
  obtain ⟨tick, hrun, -⟩ := relay_runTick
  have hlog : relayEmptied.log [⟨0⟩, ⟨1⟩] [] =
      [.fired ⟨0⟩] ++ .fired ⟨1⟩ :: (relayEmptied.log [⟨0⟩, ⟨1⟩] []).drop 2 := by
    decide +kernel
  obtain ⟨-, -, hrests, -⟩ := fired_arcsEnabled relay_assembled relay_reachable nofun hrun
  exact ⟨by decide +kernel, hrests relayChosen relay_settled (.setMark .refl relay_emptied) _ _ _ hlog⟩

end Session

end AutomationNet
