import AutomationNet.Proofs.Simulation.Reachable

/-!
# Delays in whole sessions

A diary keeps the log of a session from its start, entry by entry with the number of the tick. What
is chosen in one tick fires in the next and has not been updated in between; under `automation` a
transition fires right after the update that enables it. Either way the updates that its delay takes
lie between a firing and the one before.

* `Session.log_eq_append_fired` : what the log of a tick tells of a transition before it fires
* `Diary`, `Session.Recorded` : a session with all that has happened to it
* `Session.Kept` : every transition is updated once in a tick, and updated before it fires
* `Session.Recorded.kept` : **every diary is kept**
* `Session.Recorded.fired_after_delay` : **a delay is waited in full before every firing**
-/

namespace AutomationNet

namespace Log

/-- How often a transition has been updated. -/
def updates (t : Ref Transition) (log : Log) : Nat :=
  log.countP fun h => match h with
    | .updated u _ _ _ => u = t
    | _ => false

@[simp] theorem updates_append (t : Ref Transition) (log news : Log) :
    updates t (log ++ news) = updates t log + updates t news := List.countP_append

theorem updates_fired_cons (t u : Ref Transition) (log : Log) :
    updates t (.fired u :: log) = updates t log := List.countP_cons_of_neg (by simp)

theorem updates_about (t : Ref Transition) (log : Log) : updates t (log.about t) = updates t log := by
  rw [updates, about, List.countP_filter]
  refine List.countP_congr fun h _ => ?_
  cases h <;> simp [Happening.transition?]

/-- A transition that was found holding at its last `k` updates was updated as often. -/
theorem le_updates {t : Ref Transition} {step : Duration} {k : Nat} {log : Log}
    (h : List.replicate k (.held t step) <:+ log.about t) : k ≤ log.updates t := by
  have hcount : updates t (List.replicate k (.held t step)) = k := by
    simp [updates, List.countP_replicate]
  calc k = updates t (List.replicate k (.held t step)) := hcount.symm
    _ ≤ updates t (log.about t) := h.sublist.countP_le
    _ = log.updates t := updates_about t log

theorem Refreshed.congr {t : Ref Transition} {log log' : Log} (h : log.Refreshed t)
    (habout : log'.about t = log.about t) : log'.Refreshed t := by
  obtain ⟨step, a, g, hlast⟩ := h
  exact ⟨step, a, g, habout ▸ hlast⟩

theorem Refreshed.append {t : Ref Transition} {news : Log} (h : news.Refreshed t) (log : Log) :
    Refreshed t (log ++ news) := by
  obtain ⟨step, a, g, hlast⟩ := h
  refine ⟨step, a, g, ?_⟩
  rw [about_append, List.getLast?_append, hlast]
  rfl

theorem refreshed_append_updated (log : Log) (t : Ref Transition) (step : Duration)
    (arcsHold guardHolds : Bool) : Refreshed t (log ++ [.updated t step arcsHold guardHolds]) := by
  refine Refreshed.append ⟨step, arcsHold, guardHolds, ?_⟩ log
  rw [about_updated, if_pos rfl]
  rfl

end Log

/-! ## The log of a tick -/

namespace LiveNet

variable {step : Duration} {inputs : Guard.Snapshot} {live : LiveNet} {moves : List Move}
  {order : List (Ref Transition)} {t : Ref Transition}

theorem updates_happenings (live : LiveNet) (t : Ref Transition) (move : Move) :
    (live.happenings step inputs move).updates t = if move = .update t then 1 else 0 := by
  rcases move_cases step inputs live move with
    ⟨u, rfl, -, hhappens⟩ | ⟨u, rfl | rfl, ⟨-, hhappens⟩ | ⟨-, hhappens⟩⟩
  · rw [hhappens, Log.updates, List.countP_singleton]
    simp only [decide_eq_true_eq, Move.update.injEq]
  all_goals
    rw [hhappens]
    rfl

/-- A log counts as many updates as were attempted. -/
theorem updates_log (live : LiveNet) (moves : List Move) (t : Ref Transition) :
    (live.log step inputs moves).updates t = moves.count (.update t) := by
  induction moves generalizing live with
  | nil => rfl
  | cons move moves ih =>
    rw [log, Log.updates_append, ih, updates_happenings, List.count_cons, Nat.add_comm]
    simp only [beq_iff_eq]

theorem refreshed_log_update (live : LiveNet) (ht : t ∈ order) :
    (live.log step inputs (order.map .update)).Refreshed t := by
  induction order using List.reverseRecOn with
  | nil => exact absurd ht List.not_mem_nil
  | append_singleton order u ih =>
    rw [List.map_append, log_append]
    by_cases hut : u = t
    · subst hut
      exact Log.refreshed_append_updated _ u step _ _
    · have hmem : t ∈ order := by simpa [Ne.symm hut] using ht
      refine (ih hmem).congr ?_
      rw [Log.about_append, List.map_singleton, log, log, happenings, List.append_nil,
        Log.about_updated, if_neg hut, List.append_nil]

theorem about_log_fireChosen (live : LiveNet) {pending : List (Ref Transition)}
    (ht : t ∉ pending) : (live.log step inputs (pending.map .fireChosen)).about t = [] := by
  obtain ⟨fires, hsub, hlog⟩ := log_fireChosen step inputs live pending
  rw [hlog, Log.about, List.filter_eq_nil_iff]
  intro h hmem
  obtain ⟨u, hu, rfl⟩ := List.mem_map.mp hmem
  have hne : u ≠ t := fun hut => ht (hut ▸ hsub.subset hu)
  simpa [Happening.transition?] using hne

end LiveNet

namespace Policy

variable {order : List (Ref Transition)} {t : Ref Transition}

theorem count_visits (policy : Policy) (order : List (Ref Transition)) (t : Ref Transition) :
    (policy.visits order).count (.update t) = order.count t := by
  induction order with
  | nil => cases policy <;> rfl
  | cons u order ih =>
    rcases policy.visits_cases with ⟨-, hvisits⟩ | ⟨-, -, hvisits⟩
    · rw [hvisits] at ih
      rw [hvisits, List.map_cons, List.count_cons, List.count_cons, ih]
      simp only [beq_iff_eq, Move.update.injEq]
    · rw [hvisits] at ih
      rw [hvisits, List.flatMap_cons, List.count_append, ih, List.count_cons, Nat.add_comm]
      simp [List.count_cons]

theorem eq_append_of_choice {pending : List (Ref Transition)} {earlier later : List Move}
    {move : Move} (hmove : move = .fireChosen t ∨ move = .fireEnabled t)
    (h : pending.map .fireChosen ++ order.map .update = earlier ++ move :: later) :
    ∃ pre post, pending = pre ++ t :: post ∧ earlier = pre.map .fireChosen := by
  rcases append_eq_append_cons h with ⟨rest, hrest, -⟩ | ⟨mid, -, hmid⟩
  · obtain ⟨pre, post, rfl, rfl, hpost⟩ := List.map_eq_append_iff.mp hrest
    obtain ⟨u, post, rfl, rfl, -⟩ := List.map_eq_cons_iff.mp hpost
    obtain rfl : u = t := by simpa using hmove
    exact ⟨pre, post, rfl, rfl⟩
  · have hmem : move ∈ order.map Move.update := by simp [hmid]
    obtain ⟨u, -, rfl⟩ := List.mem_map.mp hmem
    simp at hmove

theorem eq_append_of_scan {earlier later : List Move} {move : Move}
    (hmove : move = .fireChosen t ∨ move = .fireEnabled t)
    (h : (order.flatMap fun t => [.update t, .fireEnabled t]) = earlier ++ move :: later) :
    ∃ pre post, order = pre ++ t :: post ∧
      earlier = (pre.flatMap fun t => [.update t, .fireEnabled t]) ++ [.update t] := by
  induction order generalizing earlier with
  | nil => simp at h
  | cons u order ih =>
    rw [List.flatMap_cons] at h
    rcases append_eq_append_cons h with ⟨rest, hrest, -⟩ | ⟨mid, rfl, hmid⟩
    · have hfirst : u = t ∧ earlier = [.update u] := by
        match earlier, hrest with
        | [], hrest =>
          simp only [List.nil_append, List.cons.injEq] at hrest
          simp [← hrest.1] at hmove
        | [first], hrest =>
          simp only [List.singleton_append, List.cons.injEq] at hrest
          rw [← hrest.2.1] at hmove
          exact ⟨by simpa using hmove, by rw [hrest.1]⟩
        | _ :: _ :: _, hrest => simp at hrest
      obtain ⟨rfl, rfl⟩ := hfirst
      exact ⟨[], order, rfl, rfl⟩
    · obtain ⟨pre, post, rfl, rfl⟩ := ih hmid
      exact ⟨u :: pre, post, rfl, rfl⟩

end Policy

/-- How many updates of a tick come before a firing in it. -/
def FiringMode.lead : FiringMode → Nat
  | .automation => 1
  | _ => 0

namespace Session

variable {s : Session} {order : List (Ref Transition)} {values : InputValues} {t : Ref Transition}

theorem count_fireChosen (pending : List (Ref Transition)) (t : Ref Transition) :
    (pending.map Move.fireChosen).count (.update t) = 0 := by
  rw [List.count_eq_zero, List.mem_map]
  exact nofun

theorem updates_log (s : Session) (values : InputValues) (horder : order.Nodup) (ht : t ∈ order) :
    (s.log order values).updates t = 1 := by
  rw [log, LiveNet.updates_log, plan, List.count_append, Policy.count_visits,
    List.count_eq_one_of_mem horder ht, count_fireChosen]

/-- **What the log of a tick tells of a transition before it fires**: it was chosen in the tick
before and nothing has happened to it since, or it has just been updated. -/
theorem log_eq_append_fired (hchosen : s.policy.chosen.Nodup) (horder : order.Nodup)
    {before after : Log} (h : s.log order values = before ++ .fired t :: after) :
    before.updates t = s.policy.mode.lead ∧
      (before.Refreshed t ∨ t ∈ s.policy.chosen ∧ before.about t = []) := by
  obtain ⟨earlier, move, later, hmoves, rfl, hmove⟩ := LiveNet.log_eq_append_fired h
  rw [LiveNet.updates_log]
  rw [plan] at hmoves
  rcases s.policy.visits_cases with ⟨hmode, hvisits⟩ | ⟨hmode, hnil, hvisits⟩
  · have hlead : s.policy.mode.lead = 0 := by
      cases hm : s.policy.mode with
      | automation => exact absurd hm hmode
      | _ => rfl
    rw [hvisits] at hmoves
    obtain ⟨pre, post, hsplit, rfl⟩ := Policy.eq_append_of_choice hmove hmoves
    have hpre : t ∉ pre := by
      rw [hsplit] at hchosen
      exact fun ht => (List.nodup_append.mp hchosen).2.2 t ht t List.mem_cons_self rfl
    refine ⟨?_, .inr ⟨by simp [hsplit], LiveNet.about_log_fireChosen _ hpre⟩⟩
    rw [hlead, count_fireChosen]
  · rw [hnil, hvisits, List.map_nil, List.nil_append] at hmoves
    obtain ⟨pre, post, rfl, rfl⟩ := Policy.eq_append_of_scan hmove hmoves
    have hpre : t ∉ pre := fun ht =>
      (List.nodup_append.mp horder).2.2 t ht t List.mem_cons_self rfl
    have hcount := Policy.automation.count_visits pre t
    rw [List.count_eq_zero_of_not_mem hpre] at hcount
    refine ⟨?_, .inl ?_⟩
    · rw [hmode, List.count_append]
      simp [FiringMode.lead, show List.count _ (List.flatMap _ pre) = 0 from hcount]
    · rw [LiveNet.log_append]
      exact Log.refreshed_append_updated _ t _ _ _

theorem mode_choose (policy : Policy) (order : List (Ref Transition)) (live : LiveNet) :
    (choose policy order live).mode = policy.mode := by
  cases policy <;> rfl

end Session

/-! ## Diaries -/

/-- What has happened in a session, each with the number of the last tick then begun. -/
abbrev Diary := List (Nat × Happening)

namespace Diary

def log (diary : Diary) : Log := diary.map Prod.snd

def page (n : Nat) (log : Log) : Diary := log.map fun h => (n, h)

@[simp] theorem log_append (diary news : Diary) : log (diary ++ news) = diary.log ++ news.log :=
  List.map_append

@[simp] theorem log_page (n : Nat) (l : Log) : (page n l).log = l := by
  simp [log, page, Function.comp_def]

theorem page_eq_append_cons {n k : Nat} {l : Log} {before after : Diary} {h : Happening}
    (hpage : page n l = before ++ (k, h) :: after) :
    k = n ∧ l = before.log ++ h :: after.log := by
  have hlog : l = before.log ++ h :: after.log := by
    rw [← log_page n l, hpage]
    exact log_append ..
  have hmem : (k, h) ∈ page n l := by simp [hpage]
  obtain ⟨_, -, heq⟩ := List.mem_map.mp hmem
  exact ⟨(Prod.mk.inj heq).1.symm, hlog⟩

end Diary

namespace Session

variable {s s' : Session} {net : Net} {mode : FiringMode} {initial : InputValues} {step : Duration}
  {diary : Diary}

/-- A session from its start, without going back to it, and all that has happened. -/
inductive Recorded (net : Net) (mode : FiringMode) (initial : InputValues) (step : Duration) :
    Diary → Session → Prop where
  | start : Recorded net mode initial step [] (.start net mode initial step)
  | tick {diary : Diary} {s : Session} (h : Recorded net mode initial step diary s)
      {order : List (Ref Transition)} {values : InputValues} {tick : Tick}
      (horder : order.Perm net.order) (hrun : s.runTick order values = .ok tick) :
      Recorded net mode initial step (diary ++ .page (s.tick + 1) (s.log order values)) tick.session
  | setMark {diary : Diary} {s s' : Session} (h : Recorded net mode initial step diary s)
      {place : ElementId} {mark : Int} (hset : s.setMark place mark = .ok s') :
      Recorded net mode initial step (diary ++ [(s.tick, .overridden s'.live.marking)]) s'
  | addToken {diary : Diary} {s s' : Session} (h : Recorded net mode initial step diary s)
      {place : ElementId} (hadd : s.addToken place = .ok s') :
      Recorded net mode initial step (diary ++ [(s.tick, .overridden s'.live.marking)]) s'

theorem Recorded.reachable (h : Recorded net mode initial step diary s) : Reachable net s := by
  induction h with
  | start => exact .start mode initial step
  | tick _ horder hrun ih => exact ih.tick horder hrun
  | setMark _ hset ih => exact ih.setMark hset
  | addToken _ hadd ih => exact ih.addToken hadd

/-- A diary is kept if every transition is updated once in a tick and updated before it fires. -/
structure Kept (net : Net) (mode : FiringMode) (step : Duration) (diary : Diary) (s : Session) :
    Prop where
  course : (LiveNet.ofNet net).Course diary.log s.live
  uniform : diary.log.Uniform step
  step_eq : s.step = step
  mode_eq : s.policy.mode = mode
  chosen_refreshed : ∀ t ∈ s.policy.chosen, diary.log.Refreshed t
  updates : ∀ t ∈ net.order, diary.log.updates t = s.tick
  fired : ∀ (before : Diary) n t after, diary = before ++ (n, .fired t) :: after →
    before.log.Refreshed t ∧ before.log.updates t + 1 = n + mode.lead

namespace Kept

theorem start (net : Net) (mode : FiringMode) (initial : InputValues) (step : Duration) :
    Kept net mode step [] (Session.start net mode initial step) where
  course := .refl
  uniform := fun _ _ _ _ hmem => absurd hmem List.not_mem_nil
  step_eq := rfl
  mode_eq := by cases mode <;> rfl
  chosen_refreshed := by cases mode <;> exact fun t ht => absurd ht List.not_mem_nil
  updates _ _ := rfl
  fired _ _ _ _ h := by simp at h

theorem tick (h : Kept net mode step diary s) (hnet : net.Sound) (hs : s.Consistent)
    {order : List (Ref Transition)} {values : InputValues} {tick : Tick}
    (horder : order.Perm net.order) (hyields : s.Yields order values tick) :
    Kept net mode step (diary ++ .page (s.tick + 1) (s.log order values)) tick.session := by
  have hnodup : order.Nodup := horder.nodup_iff.mpr hnet.order_nodup
  have hcourse := h.course.trans hyields.course
  have hlog : (diary ++ .page (s.tick + 1) (s.log order values) : Diary).log =
      diary.log ++ s.log order values := by
    rw [Diary.log_append, Diary.log_page]
  refine ⟨hlog ▸ hcourse, ?_, hyields.step.trans h.step_eq, ?_, fun t ht => ?_, fun t ht => ?_,
    fun before n t after hsplit => ?_⟩
  · rw [hlog]
    exact h.uniform.append (h.step_eq ▸ LiveNet.uniform_log _ _)
  · rw [hyields.policy, mode_choose, h.mode_eq]
  · rw [hyields.policy] at ht
    obtain ⟨hmem, -, hvisits⟩ := mem_chosen_choose ht
    rw [hlog, Session.log, plan, hvisits, LiveNet.log_append, ← List.append_assoc]
    exact (LiveNet.refreshed_log_update _ hmem).append _
  · rw [hlog, Log.updates_append, h.updates t ht, updates_log s values hnodup (horder.mem_iff.mpr ht),
      hyields.number]
  · rcases append_eq_append_cons hsplit with ⟨rest, hrest, -⟩ | ⟨mid, rfl, hmid⟩
    · exact h.fired before n t rest hrest
    · obtain ⟨rfl, hpage⟩ := Diary.page_eq_append_cons hmid
      obtain ⟨hupdates, hready⟩ := log_eq_append_fired hs.chosen_nodup hnodup hpage
      have ht : t ∈ net.order := by
        rw [hpage, ← List.append_assoc] at hcourse
        obtain ⟨hbefore, hcan⟩ := hcourse.canFire_of_fired rfl
        have hlt := LiveNet.lt_of_isEnabled (Bool.and_eq_true .. ▸ hcan).1
        rw [hbefore.readiness_size hnet] at hlt
        exact hnet.mem_order.mpr hlt
      rw [Diary.log_append]
      refine ⟨?_, ?_⟩
      · rcases hready with hready | ⟨hmem, hnone⟩
        · exact hready.append _
        · refine (h.chosen_refreshed t hmem).congr ?_
          rw [Log.about_append, hnone, List.append_nil]
      · rw [Log.updates_append, h.updates t ht, hupdates, h.mode_eq]
        omega

theorem setMark (h : Kept net mode step diary s) (hnet : net.Sound) {place : ElementId} {mark : Int}
    (hset : s.setMark place mark = .ok s') :
    Kept net mode step (diary ++ [(s.tick, .overridden s'.live.marking)]) s' := by
  obtain ⟨live, hlive, rfl⟩ := setMark_eq_ok.mp hset
  have hlog : (diary ++ [(s.tick, .overridden live.marking)] : Diary).log =
      diary.log ++ [.overridden live.marking] := Diary.log_append ..
  refine ⟨?_, ?_, h.step_eq, h.mode_eq, fun t ht => ?_, fun t ht => ?_, fun before n t after hsplit => ?_⟩
  · rw [hlog]
    exact h.course.setMark (.ofNet hnet) hlive
  · rw [hlog]
    exact h.uniform.append fun _ _ _ _ hmem => by simp at hmem
  · refine (h.chosen_refreshed t ht).congr ?_
    rw [hlog, Log.about_append, Log.about_overridden, List.append_nil]
  · rw [hlog, Log.updates_append]
    exact h.updates t ht
  · rcases append_eq_append_cons hsplit with ⟨rest, hrest, -⟩ | ⟨mid, -, hmid⟩
    · exact h.fired before n t rest hrest
    · simp [List.singleton_eq_append_iff] at hmid

end Kept

namespace Recorded

/-- **Every diary is kept.** -/
theorem kept (h : Recorded net mode initial step diary s) (hnet : net.Sound) :
    Kept net mode step diary s := by
  induction h with
  | start => exact .start net mode initial step
  | tick h horder hrun ih =>
    obtain ⟨-, hs⟩ := h.reachable.consistent hnet
    exact ih.tick hnet hs horder (hs.yields hrun)
  | setMark _ hset ih => exact ih.setMark hnet hset
  | addToken _ hadd ih =>
    obtain ⟨_, hset⟩ := setMark_of_addToken hadd
    exact ih.setMark hnet hset

/-- Before a firing the transition was found holding in all its last updates, as many as its delay
takes and one more. -/
theorem held_of_fired (h : Recorded net mode initial step diary s) (hnet : net.Sound)
    (hstep : 0 < step) {before after : Diary} {n : Nat} {t : Ref Transition}
    (hsplit : diary = before ++ (n, .fired t) :: after) :
    List.replicate ((net.transition t).steps step + 1) (.held t step) <:+
      before.log.about t := by
  have hkept := h.kept hnet
  have hlog : diary.log = before.log ++ .fired t :: after.log := by
    rw [hsplit]
    exact Diary.log_append ..
  obtain ⟨hbefore, hcan⟩ := hkept.course.canFire_of_fired hlog
  rw [LiveNet.canFire, Bool.and_eq_true] at hcan
  exact hbefore.held_of_isEnabled hnet (hlog ▸ hkept.uniform).of_append hstep
    (hkept.fired before n t after hsplit).1 hcan.1

/-- From one firing to the next a transition is updated as often as its delay takes and once
more. -/
theorem le_updates_between (h : Recorded net mode initial step diary s) (hnet : net.Sound)
    (hstep : 0 < step) {before between after : Diary} {n m : Nat} {t : Ref Transition}
    (hsplit : diary = before ++ (n, .fired t) :: between ++ (m, .fired t) :: after) :
    (net.transition t).steps step + 1 ≤ between.log.updates t := by
  have hheld := h.held_of_fired hnet hstep hsplit
  have habout : (before ++ (n, .fired t) :: between : Diary).log.about t =
      before.log.about t ++ .fired t :: between.log.about t := by
    rw [Diary.log_append, Log.about_append]
    simp [Diary.log, Log.about, Happening.transition?]
  rw [habout] at hheld
  -- The firing is none of the updates, so that they stand after it.
  have hne : Happening.fired t ∉
      List.replicate ((net.transition t).steps step + 1) (Happening.held t step) := by
    simp [List.mem_replicate]
  rcases List.suffix_or_suffix_of_suffix hheld (List.suffix_append _ _) with hlater | hfirst
  · rcases List.suffix_cons_iff.mp hlater with hall | hlater
    · exact absurd (hall ▸ List.mem_cons_self) hne
    · exact Log.le_updates hlater
  · exact absurd (hfirst.subset List.mem_cons_self) hne

/-- **A delay is waited in full before every firing.** Let `K` equal steps make up a delay, rounded
up. What fires was found holding in each of its last `K + 1` updates, which nothing interrupts. So
its first firing is not before tick `K + 1`, or `K + 2` if it is chosen first, and firings are `K +
1` ticks apart. The log on which this rests tells the truth about every tick. -/
theorem fired_after_delay {description : NetDescription}
    (hnet : Net.assemble description = .ok net) (hstep : 0 < step)
    (h : Recorded net mode initial step diary s) :
    (∀ (before : Diary) n t after, diary = before ++ (n, .fired t) :: after →
      List.replicate ((net.transition t).steps step + 1) (.updated t step true true) <:+
          before.log.about t ∧
        (net.transition t).steps step + 1 ≤ n ∧
        (mode ≠ .automation → (net.transition t).steps step + 2 ≤ n)) ∧
    (∀ before n t between m after,
      diary = before ++ (n, .fired t) :: between ++ (m, .fired t) :: after →
        n + ((net.transition t).steps step + 1) ≤ m) ∧
    ∀ order values tick, s.runTick order values = .ok tick →
      tick.report.fired = (s.log order values).fired.map s.live.firing ∧
      tick.session.live = s.live.replay (s.log order values) ∧
      ∀ before t arcsHold guardHolds after,
        s.log order values = before ++ .updated t step arcsHold guardHolds :: after →
          arcsHold = (s.live.replay before).arcsEnabled t ∧
            guardHolds = (net.transition t).guard.holds (s.inputs values) := by
  have hsound := Net.assemble_sound hnet
  have hkept := h.kept hsound
  refine ⟨fun before n t after hsplit => ?_, fun before n t between m after hsplit => ?_,
    fun order values tick hrun => ?_⟩
  · have hheld := h.held_of_fired hsound hstep hsplit
    have hupdates := Log.le_updates hheld
    have hcount := (hkept.fired before n t after hsplit).2
    have hlead : mode.lead ≤ 1 ∧ (mode ≠ .automation → mode.lead = 0) := by
      cases mode <;> decide
    refine ⟨hheld, by omega, fun hmode => ?_⟩
    have hzero := hlead.2 hmode
    omega
  · have hbetween := h.le_updates_between hsound hstep hsplit
    have hlater := (hkept.fired _ m t after hsplit).2
    rw [List.append_assoc] at hsplit
    have hearlier := (hkept.fired before n t _ hsplit).2
    rw [Diary.log_append, Log.updates_append] at hlater
    simp only [Diary.log, List.map_cons, Log.updates_fired_cons] at hlater hearlier hbetween
    omega
  · obtain ⟨hs, hconsistent⟩ := h.reachable.consistent hsound
    have hyields := hconsistent.yields hrun
    refine ⟨by rw [hyields.report]; rfl, hyields.course.eq_replay,
      fun before t arcsHold guardHolds after hlog => ?_⟩
    obtain ⟨harcs, hguard⟩ := LiveNet.log_eq_append_updated hlog
    exact ⟨harcs, hs ▸ hguard⟩

end Recorded

/-! ### A pulse -/

/-- A transition that waits for one step and is never hindered. -/
def pulse : NetDescription where
  places := [⟨"P1", "power", .int, "1", []⟩]
  transitions := [{ id := "T1", name := "flash", delay := "0.01" }]
  arcs := [⟨"A1", "P1", "T1", .test, "1", []⟩]

def pulseNet : Net where
  places := ⟨[⟨"P1", "power", .int, 1⟩]⟩
  transitions := ⟨[⟨"T1", "flash", {}, 10000000, .zero⟩]⟩
  arcs := ⟨[⟨"A1", ⟨0⟩, ⟨0⟩, .test, 1⟩]⟩
  attachments := ⟨[{ tests := [⟨0⟩] }]⟩
  placeKeys := ⟨[("P1", ⟨0⟩)]⟩
  transitionKeys := ⟨[("T1", ⟨0⟩)]⟩
  order := [⟨0⟩]

def pulseAfter (tick : Nat) (flash : Readiness) : Session where
  live := ⟨pulseNet, ⟨[1]⟩, ⟨[flash]⟩⟩
  policy := .automation
  history := []
  step := 10000000
  tick := tick
  time := tick * 10000000

def pulseTick (tick : Nat) (flash : Readiness) (fired : List Firing) : Tick where
  session := pulseAfter tick flash
  report := report (pulseAfter tick flash).live ⟨[1]⟩ fired tick (tick * 10000000)
  events := fired.map (fun firing => .fire firing.transition) ++ [.tick tick]
  warnings := []

/-- Four ticks of the pulse: it fires in every second one. -/
def pulseDiary : Diary :=
  [(1, .held ⟨0⟩ 10000000), (2, .held ⟨0⟩ 10000000), (2, .fired ⟨0⟩),
    (3, .held ⟨0⟩ 10000000), (4, .held ⟨0⟩ 10000000), (4, .fired ⟨0⟩)]

theorem pulse_assembled : Net.assemble pulse = .ok pulseNet :=
  Net.assemble_eq_ok (by decide +kernel) (by decide +kernel)

theorem pulse_recorded :
    Recorded pulseNet .automation [] 10000000 pulseDiary (pulseAfter 4 ⟨10000000, true, true⟩) := by
  let start : Session := .start pulseNet .automation [] 10000000
  let flash : Firing := start.live.firing ⟨0⟩
  have h₁ : start.runTick pulseNet.order [] = .ok (pulseTick 1 ⟨0, false, true⟩ []) := by
    decide +kernel
  have h₂ : (pulseAfter 1 ⟨0, false, true⟩).runTick pulseNet.order [] =
      .ok (pulseTick 2 ⟨10000000, true, true⟩ [flash]) := by
    decide +kernel
  have h₃ : (pulseAfter 2 ⟨10000000, true, true⟩).runTick pulseNet.order [] =
      .ok (pulseTick 3 ⟨0, false, true⟩ []) := by
    decide +kernel
  have h₄ : (pulseAfter 3 ⟨0, false, true⟩).runTick pulseNet.order [] =
      .ok (pulseTick 4 ⟨10000000, true, true⟩ [flash]) := by
    decide +kernel
  have hdiary : pulseDiary = ([] ++ Diary.page 1 (start.log pulseNet.order []) ++
      Diary.page 2 ((pulseAfter 1 ⟨0, false, true⟩).log pulseNet.order []) ++
      Diary.page 3 ((pulseAfter 2 ⟨10000000, true, true⟩).log pulseNet.order []) ++
      Diary.page 4 ((pulseAfter 3 ⟨0, false, true⟩).log pulseNet.order []) : Diary) := by
    decide +kernel
  rw [hdiary]
  exact (((Recorded.start.tick (.refl _) h₁).tick (.refl _) h₂).tick (.refl _) h₃).tick (.refl _) h₄

theorem pulse_delay :
    List.replicate 2 (Happening.held ⟨0⟩ 10000000) <:+
        (Diary.log (pulseDiary.take 2)).about ⟨0⟩ ∧
      2 + ((pulseNet.transition ⟨0⟩).steps 10000000 + 1) ≤ 4 := by
  have hsteps : (pulseNet.transition ⟨0⟩).steps 10000000 = 1 := by decide +kernel
  obtain ⟨hheld, hspaced, -⟩ := Recorded.fired_after_delay pulse_assembled (by decide) pulse_recorded
  have hfirst := (hheld (pulseDiary.take 2) 2 ⟨0⟩ (pulseDiary.drop 3) rfl).1
  rw [hsteps] at hfirst
  exact ⟨hfirst, hspaced (pulseDiary.take 2) 2 ⟨0⟩ ((pulseDiary.take 5).drop 3) 4 [] rfl⟩

end Session

end AutomationNet
