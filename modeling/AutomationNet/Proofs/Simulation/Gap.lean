import AutomationNet.Proofs.Simulation.History

/-!
# Gaps of an input

An accessor may leave an input out for some refreshes in a row. Such a gap is warned about where it
opens and not again: a track remembers whether the last map had its input.

* `InputValues.opensGap` : a map leaves a name out, and the one before it does not
* `InputHistory.warningLog` : the warnings of some refreshes, one list for each
* `InputTrack.missing_after`, `InputTrack.warning?_after` : what a track remembers, and when it warns
* `InputHistory.warnings_after` : the inputs that a refresh warns about, in the order of declaration
* `InputHistory.count_warningLog_of_gap` : **a gap is warned about once**
* `InputHistory.warns_where_gap_opens` : **which inputs each refresh warns about**
* `Session.missing_warnings_runTick` : a tick logs the warnings of its refresh, and no others about
  missing inputs
-/

namespace AutomationNet

/-- A map leaves a name out, and the one before it, if there is one, does not. -/
def InputValues.opensGap (before : Option InputValues) (values : InputValues) (name : String) :
    Bool :=
  (values.lookup name).isNone && !before.any fun earlier => (earlier.lookup name).isNone

def Warning.isAbout (name : String) : Warning → Bool
  | .missingInput missing _ => missing == name
  | _ => false

/-! ## One input -/

namespace InputTrack

theorem missing_refresh (values : InputValues) (track : InputTrack) :
    (track.refresh values).missing = (values.lookup track.name).isNone := by
  unfold refresh
  cases values.lookup track.name with
  | none => rfl
  | some value => rfl

/-- A track remembers whether the last map has left its input out. -/
theorem missing_after (initial : InputValues) (refreshes : List InputValues) (name : String) :
    (after initial refreshes name).missing =
      refreshes.getLast?.any fun values => (values.lookup name).isNone := by
  induction refreshes using List.reverseRecOn with
  | nil => rfl
  | append_singleton refreshes values _ =>
    rw [after_append_singleton, missing_refresh, name_after, List.getLast?_concat, Option.any_some]

theorem warning?_after (initial : InputValues) (refreshes : List InputValues) (values : InputValues)
    (name : String) :
    (after initial refreshes name).warning? values =
      if InputValues.opensGap refreshes.getLast? values name then
        some (.missingInput name (InputValues.latest name (initial :: refreshes)))
      else none := by
  rw [warning?, missing_after, name_after, current_after]
  rfl

end InputTrack

/-! ## All inputs -/

namespace InputHistory

/-- The warnings of some refreshes, one list for each. -/
def warningLog (history : InputHistory) : List InputValues → List (List Warning)
  | [] => []
  | values :: rest => history.warnings values :: warningLog (history.refresh values) rest

variable {names : List String} {name : String}

theorem warningLog_append (history : InputHistory) (done rest : List InputValues) :
    history.warningLog (done ++ rest) = history.warningLog done ++
      warningLog (done.foldl (fun history values => refresh values history) history) rest := by
  induction done generalizing history with
  | nil => rfl
  | cons values done ih =>
    rw [List.cons_append, warningLog, ih, warningLog, List.cons_append, List.foldl_cons]

/-- A refresh warns as the history does that the refreshes before it have left. -/
theorem getElem?_warningLog (history : InputHistory) (refreshes : List InputValues) (k : Nat) :
    (history.warningLog refreshes)[k]? = refreshes[k]?.map fun values =>
      warnings values
        ((refreshes.take k).foldl (fun history values => refresh values history) history) := by
  induction refreshes generalizing history k with
  | nil => rfl
  | cons values refreshes ih =>
    cases k with
    | zero => rfl
    | succ k =>
      rw [warningLog, List.getElem?_cons_succ, ih, List.getElem?_cons_succ, List.take_succ_cons,
        List.foldl_cons]

theorem warnings_after (names : List String) (initial : InputValues)
    (refreshes : List InputValues) (values : InputValues) :
    warnings values (after names initial refreshes) =
      (names.filter (InputValues.opensGap refreshes.getLast? values)).map fun name =>
        .missingInput name (InputValues.latest name (initial :: refreshes)) := by
  rw [warnings, after_eq_map, List.filterMap_map]
  induction names with
  | nil => rfl
  | cons name names ih =>
    rw [List.filterMap_cons, Function.comp_apply, InputTrack.warning?_after, ih]
    cases hopens : InputValues.opensGap refreshes.getLast? values name with
    | true => rw [List.filter_cons_of_pos hopens, List.map_cons, if_pos rfl]
    | false => rw [List.filter_cons_of_neg (by simp [hopens]), if_neg Bool.false_ne_true]

theorem warnings_eq_nil {values : InputValues} {history : InputHistory}
    (h : ∀ track ∈ history, (values.lookup track.name).isSome = true) :
    history.warnings values = [] := by
  rw [warnings, List.filterMap_eq_nil_iff]
  intro track htrack
  rw [InputTrack.warning?, Option.isNone_eq_false_iff.mpr (h track htrack)]
  rfl

/-- Each declared input is warned about at most once in a refresh. -/
theorem count_warnings_after (hnames : names.Nodup) (hname : name ∈ names) (initial : InputValues)
    (refreshes : List InputValues) (values : InputValues) :
    (warnings values (after names initial refreshes)).countP (Warning.isAbout name) =
      if InputValues.opensGap refreshes.getLast? values name then 1 else 0 := by
  have habout : (Warning.isAbout name ∘ fun other =>
      .missingInput other (InputValues.latest other (initial :: refreshes))) = (· == name) := rfl
  rw [warnings_after, List.countP_map, habout, ← List.count_eq_countP]
  cases hopens : InputValues.opensGap refreshes.getLast? values name with
  | true => rw [List.count_filter hopens, List.count_eq_one_of_mem hnames hname, if_pos rfl]
  | false =>
    refine List.count_eq_zero.mpr fun hmem => ?_
    rw [List.mem_filter, hopens] at hmem
    exact Bool.false_ne_true hmem.2

/-- **A gap is warned about once**, however long it is. -/
theorem count_warningLog_of_gap (hnames : names.Nodup) (hname : name ∈ names)
    (initial : InputValues) {before gap : List InputValues} (hgap : gap ≠ [])
    (hlacks : ∀ values ∈ gap, values.lookup name = none)
    (hbefore : ∀ earlier ∈ before.getLast?, earlier.lookup name ≠ none) :
    (warningLog (after names initial before) gap).flatten.countP (Warning.isAbout name) = 1 := by
  induction gap using List.reverseRecOn with
  | nil => exact absurd rfl hgap
  | append_singleton gap values ih =>
    have hvalues : values.lookup name = none := hlacks values (by simp)
    have hlast : (warningLog (after names initial before) (gap ++ [values])).flatten =
        (warningLog (after names initial before) gap).flatten ++
          warnings values (after names initial (before ++ gap)) := by
      rw [warningLog_append, List.flatten_append, after, after, List.foldl_append]
      simp [warningLog]
    rw [hlast, List.countP_append, count_warnings_after hnames hname]
    cases hrest : gap.getLast? with
    | none =>
      -- The first map of the gap opens it.
      obtain rfl : gap = [] := List.getLast?_eq_none_iff.mp hrest
      have hopens : InputValues.opensGap before.getLast? values name = true := by
        cases hearlier : before.getLast? with
        | none => simp [InputValues.opensGap, hvalues]
        | some earlier =>
          simp [InputValues.opensGap, hvalues, Option.isSome_iff_ne_none.mpr (hbefore earlier hearlier)]
      simp [hopens, warningLog]
    | some earlier =>
      -- Every later one comes after a map without the input.
      have hmem : earlier ∈ gap := List.mem_of_getLast? hrest
      have hearlier : earlier.lookup name = none := hlacks earlier (List.mem_append_left _ hmem)
      have hopens : InputValues.opensGap (before ++ gap).getLast? values name = false := by
        rw [List.getLast?_append, hrest]
        simp [InputValues.opensGap, hearlier]
      rw [hopens, ih (List.ne_nil_of_mem hmem) fun values hvalues =>
        hlacks values (List.mem_append_left _ hvalues)]
      rfl

/-! ### Result -/

/-- **Which inputs each refresh warns about.** Whatever the first values are, a refresh warns about
the inputs that its map leaves out, unless the map before it left them out too: each of them once, in
the order of declaration, with the value that is kept for it. -/
theorem warns_where_gap_opens (hnames : names.Nodup) (initial : InputValues)
    {refreshes : List InputValues} {k : Nat} {values : InputValues}
    (hvalues : refreshes[k]? = some values) :
    ∃ told : List String, told.Sublist names ∧ told.Nodup ∧
      (warningLog (start names initial) refreshes)[k]? = some (told.map fun name =>
        .missingInput name (InputValues.latest name (initial :: refreshes.take k))) ∧
      ∀ name ∈ names, name ∈ told ↔ values.lookup name = none ∧
        (k = 0 ∨ ∃ earlier, refreshes[k - 1]? = some earlier ∧ earlier.lookup name ≠ none) := by
  have hlog := getElem?_warningLog (start names initial) refreshes k
  have hafter := warnings_after names initial (refreshes.take k) values
  rw [hvalues, Option.map_some] at hlog
  refine ⟨names.filter (InputValues.opensGap (refreshes.take k).getLast? values),
    List.filter_sublist, hnames.filter _, hlog.trans (congrArg some hafter), fun name hname => ?_⟩
  rw [List.mem_filter, List.getLast?_take]
  cases k with
  | zero => simp [hname, InputValues.opensGap]
  | succ k =>
    have hk : k < refreshes.length :=
      Nat.lt_of_succ_lt (List.getElem?_eq_some_iff.mp hvalues).1
    simp [hname, InputValues.opensGap, hk, Option.isSome_iff_ne_none]

theorem button_warned :
    ∃ told : List String, told.Sublist ["sensor", "button"] ∧ "sensor" ∉ told ∧ "button" ∈ told ∧
      (warningLog (start ["sensor", "button"] []) buttonReadings)[1]? = some (told.map fun name =>
        .missingInput name (InputValues.latest name ([] :: buttonReadings.take 1))) := by
  have hnames : ["sensor", "button"].Nodup := by decide
  have hreading : buttonReadings[1]? = some [] := rfl
  obtain ⟨told, hsublist, -, hlog, htold⟩ := warns_where_gap_opens hnames [] hreading
  have hsensor := htold "sensor" (by decide)
  have hbutton := htold "button" (by decide)
  refine ⟨told, hsublist, fun hmem => ?_, hbutton.mpr ⟨rfl, .inr ⟨_, rfl, by decide⟩⟩, hlog⟩
  obtain ⟨-, hfirst | ⟨earlier, hearlier, hhad⟩⟩ := hsensor.mp hmem
  · cases hfirst
  · cases hearlier
    exact hhad rfl

end InputHistory

/-! ## Sessions -/

def Warning.isMissingInput : Warning → Bool
  | .missingInput _ _ => true
  | _ => false

theorem InputHistory.filter_warnings (values : InputValues) (history : InputHistory) :
    (history.warnings values).filter Warning.isMissingInput = history.warnings values := by
  rw [List.filter_eq_self]
  intro warning hwarning
  obtain ⟨track, -, htrack⟩ := List.mem_filterMap.mp hwarning
  rw [InputTrack.warning?] at htrack
  split at htrack
  · cases htrack
    rfl
  · cases htrack

theorem Net.filter_clampingsOf (net : Net) (m : Marking) (arcs : List Arc) :
    (net.clampingsOf m arcs).filter Warning.isMissingInput = [] := by
  induction arcs generalizing m with
  | nil => rfl
  | cons arc arcs ih =>
    rw [clampingsOf, List.filter_append, ih, List.append_nil, clamping?]
    split
    · rfl
    · rfl

namespace Progress

def missing (p : Progress) : List Warning := p.warnings.filter Warning.isMissingInput

variable {p q : Progress} {t : Ref Transition} {step : Duration} {inputs : Guard.Snapshot}

theorem missing_warn (p : Progress) (warnings : List Warning) :
    (p.warn warnings).missing = p.missing ++ warnings.filter Warning.isMissingInput :=
  List.filter_append ..

theorem missing_fire (h : p.fire t = .ok q) : q.missing = p.missing := by
  unfold fire at h
  split at h
  · cases h
  · cases h
    rw [missing, List.filter_append, LiveNet.clampings, Net.clampings, Net.filter_clampingsOf,
      List.append_nil]
    rfl

theorem missing_fireCandidate {candidate : Option (Ref Transition)}
    (h : p.fireCandidate candidate = .ok q) : q.missing = p.missing := by
  unfold fireCandidate at h
  split at h
  · cases h
    rfl
  · split at h
    · exact missing_fire h
    · cases h
      exact (missing_warn p _).trans (List.append_nil _)

theorem missing_firePending (h : p.firePending t = .ok q) : q.missing = p.missing := by
  unfold firePending at h
  split at h
  · exact missing_fire h
  · cases h
    rfl

theorem missing_updateAndFire (h : p.updateAndFire step inputs t = .ok q) :
    q.missing = p.missing := by
  unfold updateAndFire at h
  simp only at h
  split at h
  · exact (missing_fire h).trans rfl
  · cases h
    rfl

theorem missing_foldlM {f : Progress → Ref Transition → Except FireError Progress}
    (hf : ∀ p t q, f p t = .ok q → q.missing = p.missing) {order : List (Ref Transition)}
    (h : order.foldlM f p = .ok q) : q.missing = p.missing := by
  rcases foldlM_cases (fun _ q => q.missing = p.missing)
      (fun _ p' t q' hp' hq' => (hf p' t q' hq').trans hp') (Eq.refl p.missing) order with
    ⟨_, hok, hq⟩ | ⟨_, herror, -⟩
  · cases h.symm.trans hok
    exact hq
  · cases h.symm.trans herror

theorem missing_updates (p : Progress) (order : List (Ref Transition)) :
    (order.foldl (update step inputs) p).missing = p.missing := by
  induction order generalizing p with
  | nil => rfl
  | cons t order ih => exact ih (p.update step inputs t)

end Progress

namespace Session

variable {s : Session} {order : List (Ref Transition)} {values : InputValues} {p q : Progress}

theorem missing_fireChosen (h : s.fireChosen = .ok p) : p.missing = [] := by
  unfold fireChosen at h
  simp only at h
  split at h
  · exact Progress.missing_fireCandidate h
  · cases h
    rfl
  · exact Progress.missing_foldlM (fun _ _ _ => Progress.missing_firePending) h

theorem missing_visit {inputs : Guard.Snapshot} (h : s.visit order inputs p = .ok q) :
    q.missing = p.missing := by
  unfold visit at h
  split at h
  · exact Progress.missing_foldlM (fun _ _ _ => Progress.missing_updateAndFire) h
  · cases h
    exact Progress.missing_updates p order

/-- **A tick refreshes the history once, and logs of missing inputs what that refresh warns about**:
neither its firings nor its visits add to it. -/
theorem missing_warnings_runTick {tick : Tick} (h : s.runTick order values = .ok tick) :
    tick.session.history = s.history.refresh values ∧
      tick.warnings.filter Warning.isMissingInput = s.history.warnings values := by
  unfold runTick at h
  obtain ⟨⟨done, history⟩, hadvance, h⟩ := bind_eq_ok.mp h
  rw [mapError_eq_ok, advance] at hadvance
  obtain ⟨fired, hfired, hadvance⟩ := bind_eq_ok.mp hadvance
  obtain ⟨visited, hvisited, hadvance⟩ := bind_eq_ok.mp hadvance
  cases hadvance
  simp only at h
  split at h
  · cases h
  · cases h
    refine ⟨rfl, (missing_visit hvisited).trans ?_⟩
    rw [Progress.missing_warn, missing_fireChosen hfired, List.nil_append,
      InputHistory.filter_warnings]

end Session

end AutomationNet
