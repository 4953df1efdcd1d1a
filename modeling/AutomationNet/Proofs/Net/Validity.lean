import AutomationNet.Proofs.Net.Draft
import Mathlib.Data.List.Count
import Mathlib.Data.List.DropRight

/-!
# Valid descriptions

What a description must satisfy to be assembled, said without the course of the assembly, and what a
rejected description gets told.

* `PlaceDescription.MarkOk`, `ArcDescription.WeightOk`, `TransitionDescription.DelayOk`,
  `TransitionDescription.PriorityOk`, `TransitionDescription.GuardOk` : the texts of the elements
* `readMark_ok_iff`, `readWeight_ok_iff`, `readDelay_ok_iff`, `readPriority_ok_iff`,
  `compile_ok_iff` : they are exactly the texts that are read
* `NetDescription.Valid` : the conditions together
* `NetDescription.Breaks` : an identifier, or the name of an input, whose element breaks one of them
* `Net.assemble_iff_valid` : **exactly the valid descriptions are assembled, and an error is about
  an element that breaks a condition**
-/

namespace AutomationNet

/-! ## Conditions -/

/-- The initial mark is a whole number from zero on, and at most one where the place is a flag. -/
def PlaceDescription.MarkOk (p : PlaceDescription) : Prop :=
  ∃ mark, Numeral.int64? (Blank.trim p.initialMark) = some mark ∧ 0 ≤ mark ∧
    (p.type = .bool → mark ≤ 1)

def ArcDescription.WeightOk (a : ArcDescription) : Prop :=
  ∃ weight, Numeral.int64? (Blank.trim a.weight) = some weight ∧ 0 < weight

namespace TransitionDescription

/-- The delay is blank, or a number of seconds from zero on whose whole seconds fit in 64 bits. -/
def DelayOk (t : TransitionDescription) : Prop :=
  Blank.isBlankText t.delay = true ∨
    ∃ seconds, Binary64.ofText? (Blank.trim t.delay) = some seconds ∧ seconds.isFinite = true ∧
      Binary64.zero.le seconds = true ∧ seconds.truncate ≤ Numeral.maxNat64

def PriorityOk (t : TransitionDescription) : Prop :=
  ∀ text, t.priority = some text → Blank.isBlankText text = true ∨
    ∃ priority, Binary64.ofText? (Blank.trim text) = some priority ∧ priority.isFinite = true

/-- A guard that is not blank compiles. -/
def GuardOk (inputs : List String) (t : TransitionDescription) : Prop :=
  ∀ text, t.guard = some text → Blank.isBlankText text = false →
    ∃ guard, Guard.compileText inputs text = .ok guard

end TransitionDescription

namespace NetDescription

/-- What is asked of a description. -/
structure Valid (d : NetDescription) : Prop where
  inputs_nodup : d.inputNames.Nodup
  ids_nodup : d.ids.Nodup
  marks : ∀ p ∈ d.places, p.MarkOk
  delays : ∀ t ∈ d.transitions, t.DelayOk
  priorities : ∀ t ∈ d.transitions, t.PriorityOk
  guards : ∀ t ∈ d.transitions, t.GuardOk d.inputNames
  weights : ∀ a ∈ d.arcs, a.WeightOk
  arc_place : ∀ a ∈ d.arcs, ∃ p ∈ d.places, p.id = a.place
  arc_transition : ∀ a ∈ d.arcs, ∃ t ∈ d.transitions, t.id = a.transition

/-- The name of an input or the identifier of an element that itself breaks a condition. -/
inductive Breaks (d : NetDescription) : ElementId → Prop where
  | input {name} : 1 < d.inputNames.count name → d.Breaks name
  | id {id} : 1 < d.ids.count id → d.Breaks id
  | mark {p} : p ∈ d.places → ¬ p.MarkOk → d.Breaks p.id
  | delay {t} : t ∈ d.transitions → ¬ t.DelayOk → d.Breaks t.id
  | priority {t} : t ∈ d.transitions → ¬ t.PriorityOk → d.Breaks t.id
  | guard {t} : t ∈ d.transitions → ¬ t.GuardOk d.inputNames → d.Breaks t.id
  | weight {a} : a ∈ d.arcs → ¬ a.WeightOk → d.Breaks a.id
  | place {a} : a ∈ d.arcs → (∀ p ∈ d.places, p.id ≠ a.place) → d.Breaks a.id
  | transition {a} : a ∈ d.arcs → (∀ t ∈ d.transitions, t.id ≠ a.transition) → d.Breaks a.id

theorem Valid.not_breaks {d : NetDescription} (h : d.Valid) (id : ElementId) : ¬ d.Breaks id := by
  intro hbreaks
  cases hbreaks with
  | input hcount => exact Nat.not_lt.mpr (List.nodup_iff_count_le_one.mp h.inputs_nodup _) hcount
  | id hcount => exact Nat.not_lt.mpr (List.nodup_iff_count_le_one.mp h.ids_nodup _) hcount
  | mark hp hmark => exact hmark (h.marks _ hp)
  | delay ht hdelay => exact hdelay (h.delays _ ht)
  | priority ht hpriority => exact hpriority (h.priorities _ ht)
  | guard ht hguard => exact hguard (h.guards _ ht)
  | weight ha hweight => exact hweight (h.weights _ ha)
  | place ha hnone =>
    obtain ⟨p, hp, hid⟩ := h.arc_place _ ha
    exact hnone p hp hid
  | transition ha hnone =>
    obtain ⟨t, ht, hid⟩ := h.arc_transition _ ha
    exact hnone t ht hid

end NetDescription

/-! ## Blank texts -/

theorem trim_eq_nil_iff {text : String} : Blank.trim text = [] ↔ Blank.isBlankText text = true := by
  have htrim : Blank.trim text =
      (text.toList.dropWhile Blank.isBlank).rdropWhile Blank.isBlank := rfl
  rw [htrim, List.rdropWhile_eq_nil_iff, Blank.isBlankText, List.all_eq_true]
  constructor
  · intro h
    -- what is left after the leading blanks starts with none, so it is empty
    have hnil := List.dropWhile_eq_nil_iff.mpr h
    rw [List.dropWhile_idempotent] at hnil
    exact List.dropWhile_eq_nil_iff.mp hnil
  · intro h c hc
    exact h c (List.dropWhile_subset _ hc)

/-! ## Numbers of seconds -/

theorem Binary64.zero_le_iff {x : Binary64} (hfinite : x.isFinite = true) :
    Binary64.zero.le x = true ↔ x.lt .zero = false := by
  have hnumber : x.isNaN = false := by
    simp only [isFinite, decide_eq_true_eq] at hfinite
    simp only [isNaN, decide_eq_false_iff_not]
    omega
  have hzero : Binary64.zero.isNaN = false := by decide
  simp [le, lt, hnumber, hzero]

theorem Duration.ofSeconds?_isSome_iff {seconds : Binary64}
    (hzero : Binary64.zero.le seconds = true) :
    (∃ d, Duration.ofSeconds? seconds = some d) ↔ seconds.truncate ≤ Numeral.maxNat64 := by
  have hkey : 0 ≤ seconds.key := by
    simp only [Binary64.le, Bool.and_eq_true, decide_eq_true_eq] at hzero
    exact hzero.2
  have htruncate : seconds.truncate =
      (Binary64.scaled seconds.rank >>> Binary64.unitExponent : Nat) := by
    rw [Binary64.truncate]
    split
    · rename_i hneg
      -- a number with a minus that is not below zero is a zero
      have hrank : seconds.rank = 0 := by
        rw [Binary64.key, if_pos hneg] at hkey
        omega
      rw [hrank]
      decide
    · rfl
  have hbound : (1 <<< 64 : Nat) = Numeral.maxNat64 + 1 := by decide
  rw [htruncate, Duration.ofSeconds?, hbound]
  split
  · rename_i hlt
    simp only [Option.some.injEq, exists_eq', true_iff]
    omega
  · rename_i hlt
    simp only [reduceCtorEq, exists_false, false_iff]
    omega

/-! ## Texts that are read -/

theorem readMark_ok_iff {p : PlaceDescription} : (∃ mark, readMark p = .ok mark) ↔ p.MarkOk := by
  unfold readMark PlaceDescription.MarkOk
  cases hread : Numeral.int64? (Blank.trim p.initialMark) with
  | none => simp
  | some mark =>
    simp only [Option.some.injEq, exists_eq_left']
    split
    · rename_i hneg
      simp [Int.not_le.mpr hneg]
    · rename_i hneg
      split
      · rename_i hbool
        simp [hbool.1, Int.not_le.mpr hbool.2]
      · rename_i hbool
        simp only [Except.ok.injEq, exists_eq', true_iff]
        exact ⟨Int.not_lt.mp hneg, fun htype => Int.not_lt.mp fun hlt => hbool ⟨htype, hlt⟩⟩

theorem readMark_element {p : PlaceDescription} {e : AssemblyError} (h : readMark p = .error e) :
    e.element = p.id := by
  unfold readMark at h
  split at h
  · cases h
    rfl
  · split at h
    · cases h
      rfl
    · split at h
      · cases h
        rfl
      · cases h

theorem readWeight_ok_iff {a : ArcDescription} :
    (∃ weight, readWeight a = .ok weight) ↔ a.WeightOk := by
  unfold readWeight ArcDescription.WeightOk
  cases hread : Numeral.int64? (Blank.trim a.weight) with
  | none => simp
  | some weight =>
    simp only [Option.some.injEq, exists_eq_left']
    split
    · rename_i hle
      simp [Int.not_lt.mpr hle]
    · rename_i hle
      simp [Int.not_le.mp hle]

theorem readWeight_element {a : ArcDescription} {e : AssemblyError}
    (h : readWeight a = .error e) : e.element = a.id := by
  unfold readWeight at h
  split at h
  · cases h
    rfl
  · split at h
    · cases h
      rfl
    · cases h

theorem readDelay_ok_iff {t : TransitionDescription} :
    (∃ delay, readDelay t = .ok delay) ↔ t.DelayOk := by
  unfold readDelay TransitionDescription.DelayOk
  rw [← trim_eq_nil_iff]
  by_cases hblank : Blank.trim t.delay = []
  · simp [hblank]
  · simp only [List.isEmpty_iff, hblank, if_false, false_or]
    cases hread : Binary64.ofText? (Blank.trim t.delay) with
    | none => simp
    | some seconds =>
      simp only [Option.some.injEq, exists_eq_left']
      cases hfinite : seconds.isFinite with
      | false => simp
      | true =>
        rw [Binary64.zero_le_iff hfinite]
        cases hneg : seconds.lt .zero with
        | true => simp
        | false =>
          have hzero := (Binary64.zero_le_iff hfinite).mpr hneg
          simp only [Bool.not_true, Bool.false_eq_true, if_false, true_and,
            ← Duration.ofSeconds?_isSome_iff hzero]
          cases Duration.ofSeconds? seconds <;> simp

theorem readDelay_element {t : TransitionDescription} {e : AssemblyError}
    (h : readDelay t = .error e) : e.element = t.id := by
  unfold readDelay at h
  simp only at h
  split at h
  · cases h
  split at h
  · cases h
    rfl
  split at h
  · cases h
    rfl
  split at h
  · cases h
    rfl
  rename_i seconds _ _ _
  cases hduration : Duration.ofSeconds? seconds with
  | none =>
    rw [hduration] at h
    cases h
    rfl
  | some d =>
    rw [hduration] at h
    cases h

theorem readPriority_ok_iff {t : TransitionDescription} :
    (∃ priority, readPriority t = .ok priority) ↔ t.PriorityOk := by
  unfold readPriority TransitionDescription.PriorityOk
  cases t.priority with
  | none =>
    have hblank : Blank.trim "" = [] := rfl
    simp [hblank]
  | some text =>
    simp only [Option.getD_some, Option.some.injEq, forall_eq', ← trim_eq_nil_iff]
    by_cases hblank : Blank.trim text = []
    · simp [hblank]
    · simp only [List.isEmpty_iff, hblank, if_false, false_or]
      cases hread : Binary64.ofText? (Blank.trim text) with
      | none => simp
      | some priority => cases hfinite : priority.isFinite <;> simp [hfinite, Option.filter]

theorem readPriority_element {t : TransitionDescription} {e : AssemblyError}
    (h : readPriority t = .error e) : e.element = t.id := by
  unfold readPriority at h
  simp only at h
  split at h
  · cases h
  · split at h
    · cases h
      rfl
    · cases h

theorem compile_ok_iff {inputs : List String} {t : TransitionDescription} :
    (∃ guard, Guard.compile inputs t.guardText? = .ok guard) ↔ t.GuardOk inputs := by
  unfold TransitionDescription.GuardOk TransitionDescription.guardText? Guard.compile
  cases t.guard with
  | none => simp
  | some text => cases hblank : Blank.isBlankText text <;> simp [hblank, Option.filter]

/-! ## Errors of an assembly -/

/-- What holds exactly where a computation succeeds does not hold where it fails. -/
theorem not_of_eq_error {ε α : Type} {x : Except ε α} {P : Prop} {e : ε}
    (hP : (∃ a, x = .ok a) ↔ P) (h : x = .error e) : ¬ P := by
  intro hp
  obtain ⟨a, ha⟩ := hP.mpr hp
  cases h.symm.trans ha

namespace Draft

variable {draft : Draft} {e : AssemblyError}

theorem register_eq_error {id : ElementId} (h : draft.register id = .error e) :
    e = .duplicateId id ∧ id ∈ draft.ids := by
  unfold register at h
  split at h
  · rename_i hid
    cases h
    exact ⟨rfl, hid⟩
  · cases h

theorem addPlace_error_cases {p : PlaceDescription} (h : draft.addPlace p = .error e) :
    readMark p = .error e ∨ e = .duplicateId p.id ∧ p.id ∈ draft.ids := by
  unfold addPlace at h
  rcases bind_eq_error h with hmark | ⟨mark, -, h⟩
  · exact .inl hmark
  rcases bind_eq_error h with hregister | ⟨draft', -, h⟩
  · exact .inr (register_eq_error hregister)
  · cases h

theorem addPlace_eq_error {p : PlaceDescription} (h : draft.addPlace p = .error e) :
    e.element = p.id ∧ (¬ p.MarkOk ∨ p.id ∈ draft.ids) := by
  rcases addPlace_error_cases h with hmark | ⟨rfl, hid⟩
  · exact ⟨readMark_element hmark, .inl (not_of_eq_error readMark_ok_iff hmark)⟩
  · exact ⟨rfl, .inr hid⟩

theorem addTransition_eq_error {inputs : List String} {t : TransitionDescription}
    (h : draft.addTransition inputs t = .error e) :
    e.element = t.id ∧
      (¬ t.DelayOk ∨ ¬ t.PriorityOk ∨ ¬ t.GuardOk inputs ∨ t.id ∈ draft.ids) := by
  unfold addTransition at h
  rcases bind_eq_error h with hdelay | ⟨delay, -, h⟩
  · exact ⟨readDelay_element hdelay, .inl (not_of_eq_error readDelay_ok_iff hdelay)⟩
  rcases bind_eq_error h with hpriority | ⟨priority, -, h⟩
  · exact ⟨readPriority_element hpriority,
      .inr (.inl (not_of_eq_error readPriority_ok_iff hpriority))⟩
  rcases bind_eq_error h with hguard | ⟨guard, -, h⟩
  · obtain ⟨fault, hfault, rfl⟩ := mapError_eq_error hguard
    exact ⟨rfl, .inr (.inr (.inl (not_of_eq_error compile_ok_iff hfault)))⟩
  rcases bind_eq_error h with hregister | ⟨draft', -, h⟩
  · obtain ⟨rfl, hid⟩ := register_eq_error hregister
    exact ⟨rfl, .inr (.inr (.inr hid))⟩
  · cases h

theorem addArc_error_cases {a : ArcDescription} (h : draft.addArc a = .error e) :
    readWeight a = .error e ∨
      e = .unknownPlace a.id a.place ∧ draft.placeKeys.get? a.place = none ∨
      e = .unknownTransition a.id a.transition ∧
        draft.transitionKeys.get? a.transition = none ∨
      e = .duplicateId a.id ∧ a.id ∈ draft.ids := by
  unfold addArc at h
  rcases bind_eq_error h with hweight | ⟨weight, -, h⟩
  · exact .inl hweight
  rcases bind_eq_error h with hplace | ⟨place, -, h⟩
  · exact .inr (.inl (elim_eq_error hplace).symm)
  rcases bind_eq_error h with htransition | ⟨transition, -, h⟩
  · exact .inr (.inr (.inl (elim_eq_error htransition).symm))
  rcases bind_eq_error h with hregister | ⟨draft', -, h⟩
  · exact .inr (.inr (.inr (register_eq_error hregister)))
  · cases h

theorem addArc_eq_error {a : ArcDescription} (h : draft.addArc a = .error e) :
    e.element = a.id ∧ (¬ a.WeightOk ∨ draft.placeKeys.get? a.place = none ∨
      draft.transitionKeys.get? a.transition = none ∨ a.id ∈ draft.ids) := by
  rcases addArc_error_cases h with hweight | ⟨rfl, hplace⟩ | ⟨rfl, htransition⟩ | ⟨rfl, hid⟩
  · exact ⟨readWeight_element hweight, .inl (not_of_eq_error readWeight_ok_iff hweight)⟩
  · exact ⟨rfl, .inr (.inl hplace)⟩
  · exact ⟨rfl, .inr (.inr (.inl htransition))⟩
  · exact ⟨rfl, .inr (.inr (.inr hid))⟩

end Draft

theorem checkInputs_cases (seen names : List String) :
    (checkInputs seen names = .ok () ∧ names.Nodup ∧ ∀ name ∈ names, name ∉ seen) ∨
      ∃ name, checkInputs seen names = .error (.duplicateInput name) ∧
        1 < (seen ++ names).count name := by
  induction names generalizing seen with
  | nil => exact .inl ⟨rfl, List.nodup_nil, fun _ h => absurd h List.not_mem_nil⟩
  | cons name names ih =>
    unfold checkInputs
    split
    · rename_i hseen
      refine .inr ⟨name, rfl, ?_⟩
      have hcount := List.count_pos_iff.mpr hseen
      rw [List.count_append, List.count_cons_self]
      omega
    · rename_i hseen
      rcases ih (name :: seen) with ⟨hok, hnodup, hfresh⟩ | ⟨twice, herror, hcount⟩
      · refine .inl ⟨hok, List.nodup_cons.mpr ⟨fun hname => ?_, hnodup⟩, fun other hother => ?_⟩
        · exact hfresh name hname List.mem_cons_self
        · rcases List.mem_cons.mp hother with rfl | hother
          · exact hseen
          · exact fun hmem => hfresh other hother (List.mem_cons_of_mem _ hmem)
      · refine .inr ⟨twice, herror, ?_⟩
        rwa [List.perm_middle.count_eq]

theorem Keys.Inverts.ne_of_get?_eq_none {κ α : Type} {keys : Keys κ} {t : Table κ α}
    {key : α → ElementId} (h : keys.Inverts t key) {id : ElementId} (hnone : keys.get? id = none)
    {a : α} (ha : a ∈ t.toList) : key a ≠ id := by
  intro hkey
  obtain ⟨i, hi⟩ := List.mem_iff_getElem?.mp ha
  have hget := (h id ⟨i⟩).mpr ⟨a, hi, hkey⟩
  cases hnone.symm.trans hget

namespace Net

variable {d : NetDescription}

theorem breaks_of_mem_ids {draft : Draft} {inputs : List String} {ps : List PlaceDescription}
    {ts : List TransitionDescription} {as : List ArcDescription}
    (hdraft : draft.Holds inputs ps ts as) {id : ElementId} (hmem : id ∈ draft.ids)
    {after : List ElementId} (hids : d.ids = describedIds ps ts as ++ id :: after) :
    d.Breaks id := by
  have hcount := List.count_pos_iff.mpr (hdraft.ids.1.mem_iff.mp hmem)
  refine .id ?_
  rw [hids, List.count_append, List.count_cons_self]
  omega

/-- **An error is about an element that breaks a condition.** -/
theorem FailsAt.breaks {e : AssemblyError} (h : FailsAt d e) : d.Breaks e.element := by
  cases h with
  | input herror =>
    rcases checkInputs_cases [] d.inputNames with ⟨hok, -⟩ | ⟨name, herror', hcount⟩
    · cases herror.symm.trans hok
    · cases herror.symm.trans herror'
      exact .input hcount
  | @place done p rest draft hsplit hdraft herror =>
    have hp : p ∈ d.places := hsplit ▸ List.mem_append_right done List.mem_cons_self
    obtain ⟨hid, hmark | hmem⟩ := Draft.addPlace_eq_error herror
    · exact hid ▸ .mark hp hmark
    · exact hid ▸ breaks_of_mem_ids hdraft hmem (NetDescription.ids_of_places hsplit)
  | @transition done t rest draft hsplit hdraft herror =>
    have ht : t ∈ d.transitions := hsplit ▸ List.mem_append_right done List.mem_cons_self
    obtain ⟨hid, hdelay | hpriority | hguard | hmem⟩ := Draft.addTransition_eq_error herror
    · exact hid ▸ .delay ht hdelay
    · exact hid ▸ .priority ht hpriority
    · exact hid ▸ .guard ht hguard
    · exact hid ▸ breaks_of_mem_ids hdraft hmem (NetDescription.ids_of_transitions hsplit)
  | @arc done a rest draft hsplit hdraft herror =>
    have ha : a ∈ d.arcs := hsplit ▸ List.mem_append_right done List.mem_cons_self
    obtain ⟨hid, hweight | hplace | htransition | hmem⟩ := Draft.addArc_eq_error herror
    · exact hid ▸ .weight ha hweight
    · refine hid ▸ .place ha fun p hp hname => ?_
      obtain ⟨place, hplace', hbecomes⟩ := exists_of_forall₂ hdraft.places.flip hp
      exact hdraft.keyed.places.ne_of_get?_eq_none hplace hplace' (hbecomes.id_eq.trans hname)
    · refine hid ▸ .transition ha fun t ht hname => ?_
      obtain ⟨transition, htransition', hbecomes⟩ := exists_of_forall₂ hdraft.transitions.flip ht
      exact hdraft.keyed.transitions.ne_of_get?_eq_none htransition htransition'
        (hbecomes.id_eq.trans hname)
    · exact hid ▸ breaks_of_mem_ids hdraft hmem (NetDescription.ids_of_arcs hsplit)

theorem valid_of_holds {draft : Draft} (hinputs : checkInputs [] d.inputNames = .ok ())
    (hdraft : draft.Holds d.inputNames d.places d.transitions d.arcs) : d.Valid where
  inputs_nodup := by
    rcases checkInputs_cases [] d.inputNames with ⟨-, hnodup, -⟩ | ⟨name, herror, -⟩
    · exact hnodup
    · cases hinputs.symm.trans herror
  ids_nodup := hdraft.ids.2
  marks p hp := by
    obtain ⟨place, -, hplace⟩ := exists_of_forall₂ hdraft.places.flip hp
    exact readMark_ok_iff.mp ⟨_, hplace.mark_eq⟩
  delays t ht := by
    obtain ⟨transition, -, htransition⟩ := exists_of_forall₂ hdraft.transitions.flip ht
    exact readDelay_ok_iff.mp ⟨_, htransition.delay_eq⟩
  priorities t ht := by
    obtain ⟨transition, -, htransition⟩ := exists_of_forall₂ hdraft.transitions.flip ht
    exact readPriority_ok_iff.mp ⟨_, htransition.priority_eq⟩
  guards t ht := by
    obtain ⟨transition, -, htransition⟩ := exists_of_forall₂ hdraft.transitions.flip ht
    exact compile_ok_iff.mp ⟨_, htransition.guard_eq⟩
  weights a ha := by
    obtain ⟨arc, -, harc⟩ := exists_of_forall₂ hdraft.arcs.flip ha
    exact readWeight_ok_iff.mp ⟨_, harc.weight_eq⟩
  arc_place a ha := by
    obtain ⟨arc, -, harc⟩ := exists_of_forall₂ hdraft.arcs.flip ha
    obtain ⟨place, hget, hname⟩ := harc.place_eq
    obtain ⟨p, hp, hplace⟩ := exists_of_forall₂ hdraft.places (List.mem_of_getElem? hget)
    exact ⟨p, hp, hplace.id_eq.symm.trans hname⟩
  arc_transition a ha := by
    obtain ⟨arc, -, harc⟩ := exists_of_forall₂ hdraft.arcs.flip ha
    obtain ⟨transition, hget, hname⟩ := harc.transition_eq
    obtain ⟨t, ht, htransition⟩ := exists_of_forall₂ hdraft.transitions (List.mem_of_getElem? hget)
    exact ⟨t, ht, htransition.id_eq.symm.trans hname⟩

/-- **Exactly the valid descriptions are assembled; an error tells an element that breaks a
condition.** -/
theorem assemble_iff_valid (d : NetDescription) :
    ((∃ net, assemble d = .ok net) ↔ d.Valid) ∧
      ∀ e, assemble d = .error e → d.Breaks e.element := by
  rcases assemble_cases d with ⟨draft, hinputs, hdraft, hok⟩ | ⟨e, hfails, herror⟩
  · refine ⟨⟨fun _ => valid_of_holds hinputs hdraft, fun _ => ⟨_, hok⟩⟩, fun e herror => ?_⟩
    cases herror.symm.trans hok
  · refine ⟨⟨fun ⟨net, hok⟩ => ?_, fun hvalid => ?_⟩, fun e' herror' => ?_⟩
    · cases herror.symm.trans hok
    · exact absurd hfails.breaks (hvalid.not_breaks _)
    · cases herror.symm.trans herror'
      exact hfails.breaks

/-- A place and an arc share an identifier; the arc, which comes later, is told. -/
def clash : NetDescription where
  places := [⟨"X", "parts", .int, "1", []⟩]
  transitions := [{ id := "T1", name := "take" }]
  arcs := [⟨"X", "X", "T1", .input, "1", []⟩]

theorem clash_breaks : assemble clash = .error (.duplicateId "X") ∧ clash.Breaks "X" := by
  have herror : assemble clash = .error (.duplicateId "X") := by decide +kernel
  exact ⟨herror, (assemble_iff_valid clash).2 _ herror⟩

end Net

end AutomationNet
