import AutomationNet.Proofs.Simulation.Reachable
import Mathlib.Data.List.Chain
import Mathlib.Data.List.Infix

/-!
# What an input history remembers

A history is refreshed with one map of values after the other, and each of them may leave inputs out.
What it keeps of an input is the value of the latest map that has it, and what that was one refresh
before.

* `InputValues.latest` : the value of the latest map that has a name
* `InputHistory.after`, `InputTrack.after` : a history, and one track of it, after some refreshes
* `InputHistory.edges` : the edges that an input shows along some refreshes
* `InputTrack.current_after`, `InputTrack.previous_after` : what a track keeps
* `InputHistory.isChain_edges` : **rising and falling edges of an input alternate**
* `InputHistory.after_remembers` : **all that a history keeps of an input, and its edges**
* `Session.Reachable.history_eq` : the history of a session has been refreshed once in every tick
-/

namespace AutomationNet

/-- The value that the latest of some maps gives to a name, `0` if none of them has it. -/
def InputValues.latest (name : String) (maps : List InputValues) : Binary64 :=
  (maps.reverse.findSome? fun values => values.lookup name).getD .zero

theorem InputValues.latest_append_singleton (name : String) (maps : List InputValues)
    (values : InputValues) :
    latest name (maps ++ [values]) = (values.lookup name).getD (latest name maps) := by
  unfold latest
  rw [List.reverse_append, List.reverse_singleton, List.singleton_append, List.findSome?_cons]
  cases values.lookup name with
  | none => rfl
  | some value => rfl

/-! ## One input -/

namespace InputTrack

def after (initial : InputValues) (refreshes : List InputValues) (name : String) : InputTrack :=
  refreshes.foldl (fun track values => track.refresh values) (.start initial name)

theorem after_append_singleton (initial : InputValues) (refreshes : List InputValues)
    (values : InputValues) (name : String) :
    after initial (refreshes ++ [values]) name = (after initial refreshes name).refresh values :=
  List.foldl_append ..

theorem name_refresh (values : InputValues) (track : InputTrack) :
    (track.refresh values).name = track.name := by
  unfold refresh
  split <;> rfl

theorem current_refresh (values : InputValues) (track : InputTrack) :
    (track.refresh values).current = (values.lookup track.name).getD track.current := by
  unfold refresh
  cases values.lookup track.name with
  | none => rfl
  | some value => rfl

theorem previous_refresh (values : InputValues) (track : InputTrack) :
    (track.refresh values).previous = track.current := by
  unfold refresh
  split <;> rfl

theorem name_after (initial : InputValues) (refreshes : List InputValues) (name : String) :
    (after initial refreshes name).name = name := by
  induction refreshes using List.reverseRecOn with
  | nil => rfl
  | append_singleton refreshes values ih => rw [after_append_singleton, name_refresh, ih]

/-- The current value is that of the latest map that has the input. -/
theorem current_after (initial : InputValues) (refreshes : List InputValues) (name : String) :
    (after initial refreshes name).current = InputValues.latest name (initial :: refreshes) := by
  induction refreshes using List.reverseRecOn with
  | nil => exact (InputValues.latest_append_singleton name [] initial).symm
  | append_singleton refreshes values ih =>
    rw [after_append_singleton, current_refresh, name_after, ih, ← List.cons_append,
      InputValues.latest_append_singleton]

/-- The previous value is what the current one was before the last refresh. -/
theorem previous_after (initial : InputValues) (refreshes : List InputValues) (name : String) :
    (after initial refreshes name).previous = InputValues.latest name (initial :: refreshes.dropLast) := by
  induction refreshes using List.reverseRecOn with
  | nil => exact (InputValues.latest_append_singleton name [] initial).symm
  | append_singleton refreshes values _ =>
    rw [after_append_singleton, previous_refresh, current_after, List.dropLast_concat]

end InputTrack

/-! ## Edges -/

namespace Guard.Snapshot

def edgesAt (s : Snapshot) (index : Nat) : List EdgeKind :=
  [EdgeKind.rising, .falling].filter fun kind => s.edge kind index

theorem not_rises_and_falls (s : Snapshot) (index : Nat) :
    (s.rises index && s.falls index) = false := by
  unfold rises falls
  cases (s.value index).truthy <;> cases (s.before index).truthy <;> rfl

theorem edge_eq_false_of_eq {s : Snapshot} {index : Nat} (h : s.value index = s.before index)
    (kind : EdgeKind) : s.edge kind index = false := by
  cases kind with
  | rising => simp [edge, rises, h]
  | falling => simp [edge, falls, h]

/-- At most one edge shows, and it tells what the input was before and is now. -/
theorem edgesAt_cases (s : Snapshot) (index : Nat) :
    (s.edgesAt index = [] ∧ (s.value index).truthy = (s.before index).truthy) ∨
      ∃ kind, s.edgesAt index = [kind] ∧ (s.value index).truthy = decide (kind = .rising) ∧
        (s.before index).truthy = decide (kind = .falling) := by
  unfold edgesAt
  cases hnow : (s.value index).truthy with
  | true =>
    cases hwas : (s.before index).truthy with
    | true => exact .inl ⟨by simp [edge, rises, falls, hnow, hwas], rfl⟩
    | false => exact .inr ⟨.rising, by simp [edge, rises, falls, hnow, hwas], rfl, rfl⟩
  | false =>
    cases hwas : (s.before index).truthy with
    | true => exact .inr ⟨.falling, by simp [edge, rises, falls, hnow, hwas], rfl, rfl⟩
    | false => exact .inl ⟨by simp [edge, rises, falls, hnow, hwas], rfl⟩

end Guard.Snapshot

/-! ## All inputs -/

namespace InputHistory

def after (names : List String) (initial : InputValues) (refreshes : List InputValues) :
    InputHistory :=
  refreshes.foldl (fun history values => refresh values history) (start names initial)

def edges (names : List String) (initial : InputValues) (refreshes : List InputValues)
    (index : Nat) : List Guard.EdgeKind :=
  refreshes.inits.flatMap fun done => (after names initial done).snapshot.edgesAt index

variable {names : List String} {index : Nat} {name : String}

theorem after_append_singleton (names : List String) (initial : InputValues)
    (refreshes : List InputValues) (values : InputValues) :
    after names initial (refreshes ++ [values]) = refresh values (after names initial refreshes) :=
  List.foldl_append ..

/-- Each input goes its own way. -/
theorem after_eq_map (names : List String) (initial : InputValues) (refreshes : List InputValues) :
    after names initial refreshes = names.map (InputTrack.after initial refreshes) := by
  induction refreshes using List.reverseRecOn with
  | nil => rfl
  | append_singleton refreshes values ih =>
    rw [after_append_singleton, ih, refresh, List.map_map]
    refine List.map_congr_left fun name _ => ?_
    exact (InputTrack.after_append_singleton initial refreshes values name).symm

theorem getElem?_after (initial : InputValues) (refreshes : List InputValues)
    (hname : names[index]? = some name) :
    (after names initial refreshes)[index]? = some (InputTrack.after initial refreshes name) := by
  rw [after_eq_map, List.getElem?_map, hname]
  rfl

theorem value_after (initial : InputValues) (refreshes : List InputValues)
    (hname : names[index]? = some name) :
    (after names initial refreshes).snapshot.value index =
      InputValues.latest name (initial :: refreshes) := by
  rw [Guard.Snapshot.value, snapshot, List.getD_eq_getElem?_getD, List.getElem?_map,
    getElem?_after _ _ hname]
  exact InputTrack.current_after initial refreshes name

theorem before_after (initial : InputValues) (refreshes : List InputValues)
    (hname : names[index]? = some name) :
    (after names initial refreshes).snapshot.before index =
      InputValues.latest name (initial :: refreshes.dropLast) := by
  rw [Guard.Snapshot.before, snapshot, List.getD_eq_getElem?_getD, List.getElem?_map,
    getElem?_after _ _ hname]
  exact InputTrack.previous_after initial refreshes name

theorem value?_after (initial : InputValues) (refreshes : List InputValues) (hname : name ∈ names) :
    (after names initial refreshes).value? name =
      some (InputValues.latest name (initial :: refreshes)) := by
  have hfind : names.find? (fun other => other == name) = some name := by
    cases hfound : names.find? (fun other => other == name) with
    | none => simpa using List.find?_eq_none.mp hfound name hname
    | some found =>
      have hsame : (found == name) = true :=
        List.find?_some (p := fun other => other == name) hfound
      rw [eq_of_beq hsame]
  have htrack : (fun track : InputTrack => track.name == name) ∘ InputTrack.after initial refreshes =
      fun other => other == name := by
    funext other
    rw [Function.comp_apply, InputTrack.name_after]
  rw [value?, after_eq_map, List.find?_map, htrack, hfind, Option.map_some, Option.map_some,
    InputTrack.current_after]

theorem edges_append_singleton (names : List String) (initial : InputValues)
    (refreshes : List InputValues) (values : InputValues) (index : Nat) :
    edges names initial (refreshes ++ [values]) index =
      edges names initial refreshes index ++
        (after names initial (refreshes ++ [values])).snapshot.edgesAt index := by
  unfold edges
  rw [List.inits_append, List.flatMap_append]
  simp

/-- **Rising and falling edges of an input alternate**: the last edge tells whether the input is true
now, and the next one can only be the other. -/
theorem isChain_edges (initial : InputValues) (refreshes : List InputValues)
    (hname : names[index]? = some name) :
    (edges names initial refreshes index).IsChain (· ≠ ·) ∧
      ∀ last ∈ (edges names initial refreshes index).getLast?,
        ((after names initial refreshes).snapshot.value index).truthy = decide (last = .rising) := by
  induction refreshes using List.reverseRecOn with
  | nil =>
    have hsame : (after names initial []).snapshot.value index =
        (after names initial []).snapshot.before index := by
      rw [value_after _ _ hname, before_after _ _ hname, List.dropLast_nil]
    have hnone : edges names initial [] index = [] := by
      simp [edges, Guard.Snapshot.edgesAt, Guard.Snapshot.edge_eq_false_of_eq hsame]
    rw [hnone]
    exact ⟨.nil, nofun⟩
  | append_singleton refreshes values ih =>
    obtain ⟨hchain, hlast⟩ := ih
    -- What is now the previous value was the current one before.
    have hbefore : (after names initial (refreshes ++ [values])).snapshot.before index =
        (after names initial refreshes).snapshot.value index := by
      rw [before_after _ _ hname, value_after _ _ hname, List.dropLast_concat]
    rw [edges_append_singleton]
    rcases (after names initial (refreshes ++ [values])).snapshot.edgesAt_cases index with
      ⟨hnone, hsame⟩ | ⟨kind, hone, hnow, hwas⟩
    · rw [hnone, List.append_nil, hsame, hbefore]
      exact ⟨hchain, hlast⟩
    · rw [hone]
      rw [hbefore] at hwas
      refine ⟨hchain.append (.singleton kind) fun last hmem next hnext => ?_, fun last hmem => ?_⟩
      · obtain rfl : next = kind := by simpa using hnext.symm
        have htrue := (hlast last hmem).symm.trans hwas
        rintro rfl
        revert htrue
        cases last <;> decide
      · obtain rfl : last = kind := by simpa using hmem.symm
        exact hnow

/-! ### Result -/

/-- **What a history keeps of an input**: the value of the latest map that has it, and what that was
one refresh before. No edge shows at a refresh that leaves the input out or before the first one,
and the edges of the two kinds alternate. -/
theorem after_remembers (initial : InputValues) (refreshes : List InputValues)
    (hname : names[index]? = some name) :
    (after names initial refreshes).snapshot.value index =
        InputValues.latest name (initial :: refreshes) ∧
    (after names initial refreshes).value? name =
        some (InputValues.latest name (initial :: refreshes)) ∧
    (after names initial refreshes).snapshot.before index =
        InputValues.latest name (initial :: refreshes.dropLast) ∧
    (∀ values ∈ refreshes.getLast?, values.lookup name = none →
      ∀ kind, (after names initial refreshes).snapshot.edge kind index = false) ∧
    (∀ kind, (after names initial []).snapshot.edge kind index = false) ∧
    ((after names initial refreshes).snapshot.rises index &&
      (after names initial refreshes).snapshot.falls index) = false ∧
    (edges names initial refreshes index).IsChain (· ≠ ·) := by
  refine ⟨value_after _ _ hname, value?_after _ _ (List.mem_of_getElem? hname),
    before_after _ _ hname, fun values hlast hmissing => ?_, ?_,
    Guard.Snapshot.not_rises_and_falls _ _, (isChain_edges _ _ hname).1⟩
  · obtain ⟨done, rfl⟩ := List.getLast?_eq_some_iff.mp hlast
    refine Guard.Snapshot.edge_eq_false_of_eq ?_
    rw [value_after _ _ hname, before_after _ _ hname, List.dropLast_concat, ← List.cons_append,
      InputValues.latest_append_singleton, hmissing, Option.getD_none]
  · refine Guard.Snapshot.edge_eq_false_of_eq ?_
    rw [value_after _ _ hname, before_after _ _ hname, List.dropLast_nil]

/-- A button is pressed, left out, unreadable and pressed again, while a sensor is never read. -/
def buttonReadings : List InputValues :=
  [[("button", .one)], [], [("button", .nan)], [("button", .neg .zero)], [("button", .one)]]

theorem button_remembers :
    (after ["sensor", "button"] [] buttonReadings).snapshot.value 1 = .one ∧
      (after ["sensor", "button"] [] buttonReadings).snapshot.before 1 = .neg .zero ∧
      edges ["sensor", "button"] [] buttonReadings 1 = [.rising, .falling, .rising] ∧
      (edges ["sensor", "button"] [] buttonReadings 1).IsChain (· ≠ ·) := by
  obtain ⟨hvalue, -, hbefore, -, -, -, hchain⟩ :=
    after_remembers [] buttonReadings (show ["sensor", "button"][1]? = some "button" from rfl)
  refine ⟨hvalue.trans ?_, hbefore.trans ?_, ?_, hchain⟩
  · decide +kernel
  · decide +kernel
  · decide +kernel

end InputHistory

namespace Session

/-- The history of a session has been refreshed once in every tick, and by nothing else. -/
theorem Reachable.history_eq {net : Net} {s : Session} (h : Reachable net s) (hnet : net.Sound) :
    ∃ initial refreshes, refreshes.length = s.tick ∧
      s.history = InputHistory.after net.inputNames initial refreshes := by
  induction h with
  | start mode initial step => exact ⟨initial, [], rfl, rfl⟩
  | @tick s h order values tick _ hrun ih =>
    obtain ⟨initial, refreshes, hlength, hhistory⟩ := ih
    have hyields := (h.consistent hnet).2.yields hrun
    refine ⟨initial, refreshes ++ [values], ?_, ?_⟩
    · rw [List.length_append, hlength, hyields.number]
      rfl
    · rw [hyields.history, hhistory, InputHistory.after_append_singleton]
  | setMark _ hset ih =>
    obtain ⟨_, -, rfl⟩ := setMark_eq_ok.mp hset
    exact ih
  | addToken _ hadd ih =>
    obtain ⟨_, hset⟩ := setMark_of_addToken hadd
    obtain ⟨_, -, rfl⟩ := setMark_eq_ok.mp hset
    exact ih
  | exit _ ih => exact ih

end Session

end AutomationNet
