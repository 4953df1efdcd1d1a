import AutomationNet.Proofs.Net.Live
import Mathlib.Algebra.Order.Floor.Div
import Mathlib.Data.Nat.Basic

/-!
# Courses of a live net

A live net is updated, fired and overridden from outside. Its log keeps what happened to the
transitions, with what each update found. The log alone tells how long a transition has waited.

* `Happening`, `Log` : what happens to transitions, in order
* `Log.about` : what happened to one transition
* `Log.waited` : how long arcs and guard have held without a break or a firing
* `LiveNet.Course` : from one state to another along a log
* `LiveNet.Course.remaining_eq` : **what is left of a delay is what has not been waited yet**
* `LiveNet.Course.held_of_isEnabled` : with equal steps, a transition that is enabled and has not
  fired since its last update was found holding in all its last updates, as many as its delay takes
  and one more
-/

namespace AutomationNet

inductive Happening where
  /-- An update after a step of time, and whether it found the arcs enabled and the guard holding. -/
  | updated (t : Ref Transition) (step : Duration) (arcsHold guardHolds : Bool)
  | fired (t : Ref Transition)
  | overridden (m : Marking)
  deriving DecidableEq

def Happening.transition? : Happening → Option (Ref Transition)
  | .updated t _ _ _ => some t
  | .fired t => some t
  | .overridden _ => none

/-- An update that found arcs and guard holding. -/
abbrev Happening.held (t : Ref Transition) (step : Duration) : Happening :=
  .updated t step true true

abbrev Log := List Happening

namespace Log

/-- What happened to one transition. -/
def about (t : Ref Transition) (log : Log) : Log := log.filter fun h => h.transition? = some t

/-- The transitions that fired, in order. -/
def fired (log : Log) : List (Ref Transition) :=
  log.filterMap fun h => match h with
    | .fired t => some t
    | _ => none

/-- The wait after one more happening: an update that holds adds its step, anything else starts
over. -/
def wait (waited : Duration) : Happening → Duration
  | .updated _ step arcsHold guardHolds => if arcsHold && guardHolds then waited + step else 0
  | .fired _ => 0
  | .overridden _ => waited

/-- How long a transition has waited, given what happened to it. -/
def waited (log : Log) : Duration := log.foldl wait 0

@[simp] theorem about_nil (t : Ref Transition) : about t [] = [] := rfl

@[simp] theorem about_append (t : Ref Transition) (log news : Log) :
    about t (log ++ news) = about t log ++ about t news := List.filter_append ..

theorem about_singleton (t : Ref Transition) (h : Happening) :
    about t [h] = if h.transition? = some t then [h] else [] := by
  by_cases ht : h.transition? = some t
  · simp [about, ht]
  · simp [about, ht]

theorem about_updated (t u : Ref Transition) (step : Duration) (arcsHold guardHolds : Bool) :
    about t [.updated u step arcsHold guardHolds] =
      if u = t then [.updated u step arcsHold guardHolds] else [] := by
  rw [about_singleton, Happening.transition?]
  simp only [Option.some.injEq]

theorem about_fired (t u : Ref Transition) :
    about t [.fired u] = if u = t then [.fired u] else [] := by
  rw [about_singleton, Happening.transition?]
  simp only [Option.some.injEq]

theorem about_overridden (t : Ref Transition) (m : Marking) : about t [.overridden m] = [] := rfl

@[simp] theorem fired_append (log news : Log) : fired (log ++ news) = log.fired ++ news.fired :=
  List.filterMap_append ..

@[simp] theorem waited_append_singleton (log : Log) (h : Happening) :
    waited (log ++ [h]) = wait log.waited h := by
  simp [waited]

/-- Every update of the log is one after the same step. -/
def Uniform (step : Duration) (log : Log) : Prop :=
  ∀ t s arcsHold guardHolds, Happening.updated t s arcsHold guardHolds ∈ log → s = step

theorem Uniform.append {step : Duration} {log news : Log} (h : log.Uniform step)
    (hnews : news.Uniform step) : Uniform step (log ++ news) := by
  intro t s arcsHold guardHolds hmem
  rcases List.mem_append.mp hmem with hmem | hmem
  · exact h _ _ _ _ hmem
  · exact hnews _ _ _ _ hmem

theorem Uniform.of_append {step : Duration} {log news : Log} (h : Uniform step (log ++ news)) :
    log.Uniform step :=
  fun _ _ _ _ hmem => h _ _ _ _ (List.mem_append_left _ hmem)

/-- With equal steps, the wait counts the updates at the end of the log that held. -/
theorem Uniform.waited_eq {step : Duration} {t : Ref Transition} {log : Log}
    (h : log.Uniform step) :
    ∃ k, List.replicate k (.held t step) <:+ log.about t ∧ (log.about t).waited = k * step := by
  induction log using List.reverseRecOn with
  | nil => exact ⟨0, List.suffix_refl _, (Nat.zero_mul step).symm⟩
  | append_singleton log x ih =>
    obtain ⟨k, hk, hw⟩ := ih h.of_append
    rw [about_append]
    by_cases hx : x.transition? = some t
    · rw [about_singleton, if_pos hx, waited_append_singleton]
      match x, hx with
      | .fired _, _ => exact ⟨0, List.nil_suffix, (Nat.zero_mul step).symm⟩
      | .updated u s arcsHold guardHolds, hx =>
        have hs : s = step := h u s arcsHold guardHolds (by simp)
        have hu : u = t := Option.some.inj hx
        by_cases hheld : (arcsHold && guardHolds) = true
        · rw [Bool.and_eq_true] at hheld
          refine ⟨k + 1, ?_, ?_⟩
          · rw [List.replicate_succ', hheld.1, hheld.2, hs, hu]
            exact List.suffix_append_self_iff.mpr hk
          · simp only [wait, hheld, Bool.and_self, if_true]
            rw [hw, hs, Nat.succ_mul]
        · refine ⟨0, List.nil_suffix, ?_⟩
          simp [wait, hheld]
    · rw [about_singleton, if_neg hx, List.append_nil]
      exact ⟨k, hk, hw⟩

/-- The last that happened to the transition is an update. -/
def Refreshed (t : Ref Transition) (log : Log) : Prop :=
  ∃ step arcsHold guardHolds, (log.about t).getLast? = some (.updated t step arcsHold guardHolds)

end Log

/-- Where an element of two joined lists stands. -/
theorem append_eq_append_cons {α : Type} {l news before after : List α} {a : α}
    (h : l ++ news = before ++ a :: after) :
    (∃ rest, l = before ++ a :: rest ∧ after = rest ++ news) ∨
      ∃ mid, before = l ++ mid ∧ news = mid ++ a :: after := by
  rcases List.append_eq_append_iff.mp h with ⟨mid, rfl, hnews⟩ | ⟨mid, rfl, hcons⟩
  · exact .inr ⟨mid, rfl, hnews⟩
  · rcases List.cons_eq_append_iff.mp hcons with ⟨rfl, rfl⟩ | ⟨rest, rfl, rfl⟩
    · exact .inr ⟨[], by simp, rfl⟩
    · exact .inl ⟨rest, rfl, rfl⟩

/-- How many steps a delay takes, rounded up. -/
def Transition.steps (transition : Transition) (step : Duration) : Nat :=
  transition.delay ⌈/⌉ step

/-! ## Courses -/

namespace LiveNet

def after (live : LiveNet) : Happening → LiveNet
  | .updated t step arcsHold guardHolds =>
    { live with
      readiness := live.readiness.modify t
        (Readiness.update (live.net.transition t).delay step arcsHold guardHolds) }
  | .fired t => live.fired t
  | .overridden m => { live with marking := m }

def replay (live : LiveNet) (log : Log) : LiveNet := log.foldl after live

@[simp] theorem replay_append_singleton (live : LiveNet) (log : Log) (h : Happening) :
    live.replay (log ++ [h]) = (live.replay log).after h := by
  simp [replay]

/-- From one state to another along a log that tells the truth: updates with what they find, firings
of transitions that may fire, and marks overridden in between. -/
inductive Course (start : LiveNet) : Log → LiveNet → Prop where
  | refl : Course start [] start
  | update {log : Log} {live : LiveNet} (h : Course start log live) (t : Ref Transition)
      (step : Duration) (inputs : Guard.Snapshot) :
      Course start
        (log ++ [.updated t step (live.arcsEnabled t) ((live.net.transition t).guard.holds inputs)])
        (live.update t step inputs)
  | fire {log : Log} {live : LiveNet} (h : Course start log live) {t : Ref Transition}
      (hfire : live.canFire t = true) : Course start (log ++ [.fired t]) (live.fired t)
  | override {log : Log} {live : LiveNet} (h : Course start log live) {m : Marking}
      (hsize : m.size = live.marking.size) (hmark : live.net.WithinCapacity m) :
      Course start (log ++ [.overridden m]) { live with marking := m }

namespace Course

variable {start live live' : LiveNet} {log news : Log} {t : Ref Transition} {step : Duration}
  {net : Net}

theorem trans (h : Course start log live) (h' : Course live news live') :
    Course start (log ++ news) live' := by
  induction h' with
  | refl =>
    rw [List.append_nil]
    exact h
  | update _ t step inputs ih =>
    rw [← List.append_assoc]
    exact ih.update t step inputs
  | fire _ hfire ih =>
    rw [← List.append_assoc]
    exact ih.fire hfire
  | override _ hsize hmark ih =>
    rw [← List.append_assoc]
    exact ih.override hsize hmark

/-- The log alone tells where a course leads. -/
theorem eq_replay (h : Course start log live) : live = start.replay log := by
  induction h with
  | refl => rfl
  | update _ _ _ _ ih =>
    rw [replay_append_singleton, ← ih]
    rfl
  | fire _ _ ih =>
    rw [replay_append_singleton, ← ih]
    rfl
  | override _ _ _ ih =>
    rw [replay_append_singleton, ← ih]
    rfl

theorem net_eq (h : Course start log live) : live.net = start.net := by
  induction h with
  | refl => rfl
  | update _ _ _ _ ih => exact ih
  | fire _ _ ih => exact ih
  | override _ _ _ ih => exact ih

theorem valid (h : Course start log live) (hstart : start.Valid) : live.Valid := by
  induction h with
  | refl => exact hstart
  | update _ t step inputs ih => exact ih.update t step inputs
  | fire _ _ ih => exact ih.fired _
  | override _ hsize hmark ih => exact ih.override hsize hmark

theorem readiness_size (h : Course (ofNet net) log live) (hnet : net.Sound) :
    live.readiness.size = net.transitions.size := by
  rw [(h.valid (.ofNet hnet)).readiness_size, h.net_eq]
  rfl

theorem setMark (h : Course start log live) (hstart : start.Valid) {id : ElementId} {mark : Int}
    (hset : live.setMark id mark = .ok live') :
    Course start (log ++ [.overridden live'.marking]) live' := by
  obtain ⟨_, -, -, hmark, rfl⟩ := setMark_eq_ok.mp hset
  exact h.override (Table.size_set _ _ _) ((h.valid hstart).mark_le.set hmark)

/-- Up to any of its firings a course leads to a state in which the transition may fire. -/
theorem canFire_of_fired (h : Course start log live) {before after : Log}
    (hlog : log = before ++ .fired t :: after) :
    Course start before (start.replay before) ∧ (start.replay before).canFire t = true := by
  induction h generalizing after with
  | refl => simp at hlog
  | update _ _ _ _ ih =>
    rcases append_eq_append_cons hlog with ⟨rest, hrest, -⟩ | ⟨mid, -, hmid⟩
    · exact ih hrest
    · simp [List.singleton_eq_append_iff] at hmid
  | fire hcourse hfire ih =>
    rcases append_eq_append_cons hlog with ⟨rest, hrest, -⟩ | ⟨mid, hbefore, hmid⟩
    · exact ih hrest
    · simp only [List.singleton_eq_append_iff, List.cons.injEq, Happening.fired.injEq, reduceCtorEq,
        and_false, or_false] at hmid
      obtain ⟨rfl, rfl, -⟩ := hmid
      rw [hbefore, List.append_nil, ← hcourse.eq_replay]
      exact ⟨hcourse, hfire⟩
  | override _ _ _ ih =>
    rcases append_eq_append_cons hlog with ⟨rest, hrest, -⟩ | ⟨mid, -, hmid⟩
    · exact ih hrest
    · simp [List.singleton_eq_append_iff] at hmid

/-- **What is left of a delay is what has not been waited yet.** -/
theorem remaining_eq (h : Course (ofNet net) log live) (hnet : net.Sound)
    (ht : t.index < net.transitions.size) :
    (live.ready t).remaining = (net.transition t).delay - (log.about t).waited := by
  induction h with
  | refl =>
    rw [ready_ofNet, if_pos ht]
    rfl
  | @update log live h u step inputs ih =>
    have hlt : t.index < live.readiness.size := by rwa [h.readiness_size hnet]
    rw [Log.about_append, Log.about_updated, ready_update]
    by_cases hut : u = t
    · subst hut
      rw [if_pos ⟨rfl, hlt⟩, if_pos rfl, Readiness.remaining_update, Log.waited_append_singleton,
        Log.wait]
      split
      · rw [ih, Nat.sub_sub]
      · rw [h.net_eq]
        rfl
    · rw [if_neg (fun hu => hut hu.1), if_neg hut, List.append_nil, ih]
  | @fire log live h u _ ih =>
    have hlt : t.index < live.readiness.size := by rwa [h.readiness_size hnet]
    rw [Log.about_append, Log.about_fired, ready_fired]
    by_cases hut : u = t
    · subst hut
      rw [if_pos ⟨rfl, hlt⟩, if_pos rfl, Log.waited_append_singleton, h.net_eq]
      rfl
    · rw [if_neg (fun hu => hut hu.1), if_neg hut, List.append_nil, ih]
  | override _ _ _ ih =>
    rw [Log.about_append, Log.about_overridden, List.append_nil]
    exact ih

/-- With equal steps, a transition that is enabled and has not fired since its last update was found
holding in all its last updates, as many as its delay takes and one more. -/
theorem held_of_isEnabled (h : Course (ofNet net) log live) (hnet : net.Sound)
    (hlog : log.Uniform step) (hstep : 0 < step) (hrefreshed : log.Refreshed t)
    (hon : live.isEnabled t = true) :
    List.replicate ((net.transition t).steps step + 1) (.held t step) <:+ log.about t := by
  have ht : t.index < net.transitions.size := h.readiness_size hnet ▸ lt_of_isEnabled hon
  induction h with
  | refl =>
    obtain ⟨_, _, _, hlast⟩ := hrefreshed
    simp at hlast
  | @update log live h u s inputs ih =>
    obtain rfl : s = step := hlog u s _ _ (List.mem_append_right _ (List.mem_singleton_self _))
    rw [isEnabled, ready_update] at hon
    rw [Log.about_append, Log.about_updated]
    by_cases hut : u = t
    · subst hut
      have hlt : u.index < live.readiness.size := by rwa [h.readiness_size hnet]
      rw [if_pos ⟨rfl, hlt⟩, Readiness.enabled_update] at hon
      obtain ⟨harcs, hguard, hzero⟩ := hon
      -- Nothing was left to wait before this update, so the updates before it cover the delay.
      obtain ⟨k, hk, hw⟩ := hlog.of_append.waited_eq (t := u)
      rw [h.remaining_eq hnet ht, hw] at hzero
      have hle : (net.transition u).steps s ≤ k := by
        rw [Transition.steps, ceilDiv_le_iff_le_mul hstep, Nat.mul_comm]
        exact Nat.le_of_sub_eq_zero hzero
      rw [if_pos rfl, harcs, hguard, List.replicate_succ', List.suffix_append_self_iff]
      exact (List.suffix_replicate_iff.mpr ⟨by simpa using hle, by simp⟩).trans hk
    · rw [if_neg (fun hu => hut hu.1)] at hon
      rw [if_neg hut, List.append_nil]
      refine ih hlog.of_append ?_ hon
      obtain ⟨s', a, g, hlast⟩ := hrefreshed
      rw [Log.about_append, Log.about_updated, if_neg hut, List.append_nil] at hlast
      exact ⟨s', a, g, hlast⟩
  | @fire log live h u _ ih =>
    obtain ⟨s, a, g, hlast⟩ := hrefreshed
    rw [Log.about_append, Log.about_fired] at hlast
    by_cases hut : u = t
    · rw [if_pos hut, List.getLast?_append] at hlast
      simp at hlast
    · rw [if_neg hut, List.append_nil] at hlast
      rw [Log.about_append, Log.about_fired, if_neg hut, List.append_nil]
      rw [isEnabled_fired] at hon
      exact ih hlog.of_append ⟨s, a, g, hlast⟩ hon
  | override _ _ _ ih =>
    rw [Log.about_append, Log.about_overridden, List.append_nil]
    obtain ⟨s, a, g, hlast⟩ := hrefreshed
    rw [Log.about_append, Log.about_overridden, List.append_nil] at hlast
    exact ih hlog.of_append ⟨s, a, g, hlast⟩ hon

end Course

end LiveNet

end AutomationNet
