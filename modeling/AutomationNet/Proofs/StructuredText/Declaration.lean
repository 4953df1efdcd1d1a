import AutomationNet.Proofs.Net.Structure
import AutomationNet.Proofs.Net.Validity
import AutomationNet.StructuredText.Program
import Mathlib.Data.List.Nodup

/-!
# Declared variables

A program declares one variable for each place, each input, each transition with a delay and each
edge that a guard watches. Places and inputs keep their names, timers and triggers derive theirs, and
an assembly does not compare the names of different elements.

* `Variable`, `Net.programVariables` : what the variables of a program stand for, in the order of their
  declarations
* `Net.variableName` : the identifier that stands for an element
* `Net.declared_ofNet` : **one declaration for each of these elements**
* `Net.NamesApart` : names that are not taken twice
* `Net.declared_nodup_iff` : **when the declared identifiers are different, and which elements can
  share one**
-/

namespace AutomationNet

open StructuredText

/-! ## Lists and tables -/

theorem Guard.nodup_distinct {α : Type} [DecidableEq α] (items : List α) :
    (distinct items).Nodup := by
  suffices h : ∀ seen : List α, seen.Nodup →
      (items.foldl (fun seen item => if item ∈ seen then seen else seen ++ [item]) seen).Nodup from
    h [] List.nodup_nil
  induction items with
  | nil => exact fun seen hseen => hseen
  | cons item items ih =>
    intro seen hseen
    rw [List.foldl_cons]
    split
    · exact ih seen hseen
    · rename_i hnew
      exact ih _ (List.nodup_append.mpr ⟨hseen, List.nodup_singleton item, fun a ha b hb => by
        rw [List.mem_singleton.mp hb]
        exact fun hab => hnew (hab ▸ ha)⟩)

theorem Table.map_getD_refs {κ α β : Type} [Inhabited α] (t : Table κ α) (f : α → β) :
    t.refs.map (fun r => f ((t.get? r).getD default)) = t.toList.map f := by
  refine List.ext_getElem (by simp [refs, size]) fun i h _ => ?_
  have hi : i < t.toList.length := by simpa [refs, size] using h
  simp [refs, get?, hi]

/-! ## What the variables stand for -/

inductive StructuredText.Variable where
  | place (r : Ref Place)
  | input (index : Nat)
  | timer (t : Ref Transition)
  | trigger (edge : Trigger)
  deriving DecidableEq

namespace StructuredText.Variable

/-- The kinds of elements that nothing keeps from having one name, the earlier declaration first. A
place may be named like anything, an input like a timer or a trigger, and a transition with a delay
like another one. -/
def mayShare : Variable → Variable → Bool
  | .place _, _ => true
  | .input _, .timer _ => true
  | .input _, .trigger _ => true
  | .timer _, .timer _ => true
  | _, _ => false

end StructuredText.Variable

/-! ## Derived names -/

namespace StructuredText.Trigger

theorem eq_of_name_eq {a b : Trigger} (h : a.name = b.name) : a = b := by
  obtain ⟨kind, input⟩ := a
  obtain ⟨kind', input'⟩ := b
  cases kind <;> cases kind' <;>
    simp [Trigger.name, triggerName, Guard.EdgeKind.function, ← String.toList_inj] at h
  all_goals
    rw [String.toList_inj.mp h]

theorem name_ne_timer (edge : Trigger) (name : String) : edge.name ≠ "ton_" ++ name := by
  obtain ⟨kind, input⟩ := edge
  intro h
  cases kind <;> simp [Trigger.name, triggerName, Guard.EdgeKind.function, ← String.toList_inj] at h

end StructuredText.Trigger

namespace Net

variable {net : Net}

def delayed (net : Net) : List (Ref Transition) :=
  net.transitions.refs.filter fun t => (net.transition t).delay ≠ 0

/-- What the variables of the program stand for, in the order of their declarations. -/
def programVariables (net : Net) : List Variable :=
  net.places.refs.map .place ++ (List.range net.inputs.length).map .input ++
    net.delayed.map .timer ++ (Program.triggersOf net).map .trigger

/-- The identifier that stands for an element. -/
def variableName (net : Net) : Variable → String
  | .place r => (net.place r).name
  | .input i => net.inputNames.getD i ""
  | .timer t => "ton_" ++ (net.transition t).name
  | .trigger edge => edge.name

def placeNames (net : Net) : List String := net.places.toList.map (·.name)

def timerNames (net : Net) : List String :=
  net.delayed.map fun t => "ton_" ++ (net.transition t).name

def triggerNames (net : Net) : List String := (Program.triggersOf net).map (·.name)

theorem timerNames_eq (net : Net) :
    net.timerNames = (net.transitions.toList.filterMap Program.timerOf).map (·.name) := by
  have hdelayed : net.timerNames = (net.transitions.refs.map net.transition).filterMap
      fun t => if t.delay = 0 then none else some ("ton_" ++ t.name) := by
    rw [timerNames, delayed, List.filterMap_map, ← List.filterMap_eq_map, List.filterMap_filter]
    refine List.filterMap_congr fun t _ => ?_
    by_cases h : (net.transition t).delay = 0 <;> simp [h]
  have htable : net.transitions.refs.map net.transition = net.transitions.toList :=
    (net.transitions.map_getD_refs id).trans (List.map_id _)
  rw [hdelayed, htable, List.map_filterMap]
  refine List.filterMap_congr fun t _ => ?_
  by_cases h : t.delay = 0 <;> simp [Program.timerOf, h]

theorem declared_eq (net : Net) : (Program.ofNet net).declared =
    net.placeNames ++ net.inputNames ++ net.timerNames ++ net.triggerNames := by
  rw [timerNames_eq]
  simp [Program.declared, Program.declarations, Program.ofNet, placeNames, inputNames, triggerNames,
    Program.ofPlace, Trigger.declaration, Function.comp_def]

/-- **One declaration for each element.** -/
theorem declared_ofNet (net : Net) :
    (Program.ofNet net).declared = net.programVariables.map net.variableName := by
  have hplaces : net.places.refs.map (fun r => (net.place r).name) = net.placeNames :=
    net.places.map_getD_refs (·.name)
  have hinputs : (List.range net.inputs.length).map (fun i => net.inputNames.getD i "") =
      net.inputNames := by
    refine List.ext_getElem (by simp [inputNames]) fun i h _ => ?_
    have hi : i < net.inputs.length := by simpa using h
    simp [inputNames, hi]
  rw [declared_eq, programVariables, List.map_append, List.map_append, List.map_append, List.map_map,
    List.map_map, List.map_map, List.map_map]
  exact congrArg₂ (· ++ ·) (congrArg₂ (· ++ ·) (congrArg₂ (· ++ ·) hplaces.symm hinputs.symm) rfl) rfl

theorem nodup_programVariables (net : Net) : net.programVariables.Nodup := by
  have hdelayed : net.delayed.Nodup := net.transitions.refs_nodup.filter _
  have htriggers : (Program.triggersOf net).Nodup := Guard.nodup_distinct _
  rw [programVariables, List.nodup_append, List.nodup_append, List.nodup_append]
  refine ⟨⟨⟨net.places.refs_nodup.map fun _ _ h => Variable.place.inj h,
    List.nodup_range.map fun _ _ h => Variable.input.inj h, ?_⟩,
    hdelayed.map fun _ _ h => Variable.timer.inj h, ?_⟩,
    htriggers.map fun _ _ h => Variable.trigger.inj h, ?_⟩
  all_goals
    intro v hv w hw
    simp only [List.mem_append, List.mem_map] at hv hw
    grind

/-! ## Names that are taken twice -/

theorem assemble_inputNames_nodup {description : NetDescription}
    (h : assemble description = .ok net) : net.inputNames.Nodup := by
  rcases assemble_cases description with ⟨draft, hinputs, -, hok⟩ | ⟨e, -, herror⟩
  · cases h.symm.trans hok
    rcases checkInputs_cases [] description.inputNames with ⟨-, hnodup, -⟩ | ⟨name, htwice, -⟩
    · exact hnodup
    · cases hinputs.symm.trans htwice
  · cases h.symm.trans herror

/-- No name is taken twice: not by two places or two transitions with a delay, not by a place and an
input, and no place or input has a name that a timer or a trigger derives. -/
structure NamesApart (net : Net) : Prop where
  places : net.placeNames.Nodup
  transitions : (net.delayed.map fun t => (net.transition t).name).Nodup
  inputs : ∀ name ∈ net.placeNames, name ∉ net.inputNames
  timers : ∀ name ∈ net.timerNames, name ∉ net.placeNames ++ net.inputNames
  triggers : ∀ name ∈ net.triggerNames, name ∉ net.placeNames ++ net.inputNames

theorem nodup_timerNames_iff :
    net.timerNames.Nodup ↔ (net.delayed.map fun t => (net.transition t).name).Nodup := by
  have hmap : net.timerNames =
      (net.delayed.map fun t => (net.transition t).name).map ("ton_" ++ ·) := by
    rw [List.map_map]
    rfl
  have hinjective : Function.Injective ("ton_" ++ · : String → String) := by
    intro a b h
    simpa [← String.toList_inj] using h
  rw [hmap, List.nodup_map_iff hinjective]

theorem nodup_triggerNames (net : Net) : net.triggerNames.Nodup :=
  (Guard.nodup_distinct _).map fun _ _ => Trigger.eq_of_name_eq

/-- Timers and triggers have different names, whatever their transitions and inputs are called. -/
theorem timerNames_disjoint_triggerNames (net : Net) :
    ∀ name ∈ net.timerNames, name ∉ net.triggerNames := by
  intro name htimer htrigger
  obtain ⟨t, -, rfl⟩ := List.mem_map.mp htimer
  obtain ⟨edge, -, hedge⟩ := List.mem_map.mp htrigger
  exact edge.name_ne_timer _ hedge

theorem nodup_declared_iff (hinputs : net.inputNames.Nodup) :
    (Program.ofNet net).declared.Nodup ↔ net.NamesApart := by
  have hderived := net.timerNames_disjoint_triggerNames
  rw [declared_eq, List.nodup_append', List.nodup_append', List.nodup_append', nodup_timerNames_iff]
  constructor
  · rintro ⟨⟨⟨hplaces, -, hplain⟩, htransitions, htimers⟩, -, htriggers⟩
    refine ⟨hplaces, htransitions, fun name hname => hplain hname, fun name hname hmem => ?_,
      fun name hname hmem => ?_⟩
    · exact htimers hmem hname
    · exact htriggers (List.mem_append_left _ hmem) hname
  · rintro ⟨hplaces, htransitions, hplain, htimers, htriggers⟩
    refine ⟨⟨⟨hplaces, hinputs, fun name => hplain name⟩, htransitions, fun name hmem hname => ?_⟩,
      net.nodup_triggerNames, fun name hmem hname => ?_⟩
    · exact htimers name hname hmem
    · rcases List.mem_append.mp hmem with hmem | hmem
      · exact htriggers name hname hmem
      · exact hderived name hmem hname

/-- Two inputs, two triggers, or a timer and a trigger never share an identifier. -/
theorem mayShare_of_variableName_eq (hinputs : net.inputNames.Nodup) {v w : Variable}
    (hv : v ∈ net.programVariables) (hw : w ∈ net.programVariables)
    (hname : net.variableName v = net.variableName w) (hne : v ≠ w) :
    v.mayShare w = true ∨ w.mayShare v = true := by
  have hindex : ∀ i, Variable.input i ∈ net.programVariables → i < net.inputNames.length := by
    intro i hi
    simpa [programVariables, inputNames] using hi
  match v, w with
  | .place _, _ => exact .inl rfl
  | _, .place _ => exact .inr rfl
  | .input i, .input j =>
    have hi := hindex i hv
    have hj := hindex j hw
    have hget : net.inputNames[i] = net.inputNames[j] := by
      simpa [variableName, hi, hj] using hname
    exact absurd (congrArg Variable.input (hinputs.getElem_inj_iff.mp hget)) hne
  | .input _, .timer _ => exact .inl rfl
  | .input _, .trigger _ => exact .inl rfl
  | .timer _, .input _ => exact .inr rfl
  | .timer _, .timer _ => exact .inl rfl
  | .trigger _, .input _ => exact .inr rfl
  | .timer _, .trigger edge => exact absurd hname.symm (edge.name_ne_timer _)
  | .trigger edge, .timer _ => exact absurd hname (edge.name_ne_timer _)
  | .trigger _, .trigger _ => exact absurd (congrArg _ (Trigger.eq_of_name_eq hname)) hne

/-! ### Two places of one name -/

/-- Parts move from one place to another of the same name. -/
def conveyor : NetDescription where
  places := [⟨"P1", "parts", .int, "2", []⟩, ⟨"P2", "parts", .int, "0", []⟩]
  transitions := [{ id := "T1", name := "convey" }]
  arcs := [⟨"A1", "P1", "T1", .input, "1", []⟩, ⟨"A2", "P2", "T1", .output, "1", []⟩]

def conveyorNet : Net where
  places := ⟨[⟨"P1", "parts", .int, 2⟩, ⟨"P2", "parts", .int, 0⟩]⟩
  transitions := ⟨[⟨"T1", "convey", {}, 0, .zero⟩]⟩
  arcs := ⟨[⟨"A1", ⟨0⟩, ⟨0⟩, .input, 1⟩, ⟨"A2", ⟨1⟩, ⟨0⟩, .output, 1⟩]⟩
  attachments := ⟨[{ inputs := [⟨0⟩], outputs := [⟨1⟩] }]⟩
  placeKeys := ⟨[("P2", ⟨1⟩), ("P1", ⟨0⟩)]⟩
  transitionKeys := ⟨[("T1", ⟨0⟩)]⟩
  order := [⟨0⟩]

theorem conveyor_assembled : assemble conveyor = .ok conveyorNet :=
  assemble_eq_ok (by decide +kernel) (by decide +kernel)

/-- Both places of the conveyor are the variable `parts`. -/
theorem conveyor_declared_twice :
    ¬ ∀ (description : NetDescription) (net : Net), assemble description = .ok net →
      (Program.ofNet net).declared.Nodup := by
  intro h
  have hnodup := h conveyor conveyorNet conveyor_assembled
  have hdeclared : (Program.ofNet conveyorNet).declared = ["parts", "parts"] := by decide +kernel
  rw [hdeclared] at hnodup
  exact absurd hnodup (by decide)

/-! ### Result -/

/-- **When the declared identifiers are different**: if and only if no name is taken twice, there
being one variable for each element. Never do two inputs, two triggers, or a timer and a trigger
share an identifier. -/
theorem declared_nodup_iff {description : NetDescription}
    (hnet : assemble description = .ok net) :
    (Program.ofNet net).declared = net.programVariables.map net.variableName ∧
    net.programVariables.Nodup ∧
    ((Program.ofNet net).declared.Nodup ↔ net.NamesApart) ∧
    ∀ v ∈ net.programVariables, ∀ w ∈ net.programVariables,
      net.variableName v = net.variableName w → v ≠ w →
        v.mayShare w = true ∨ w.mayShare v = true := by
  have hinputs := assemble_inputNames_nodup hnet
  exact ⟨net.declared_ofNet, net.nodup_programVariables, nodup_declared_iff hinputs,
    fun v hv w hw => mayShare_of_variableName_eq hinputs hv hw⟩

/-- The press has a timer `ton_open` and a trigger `rt_go`, and no name twice. -/
theorem press_declared : assemble press = .ok pressNet ∧
    (Program.ofNet pressNet).declared = ["parts", "closed", "go", "ready", "ton_open", "rt_go"] ∧
    (Program.ofNet pressNet).declared.Nodup := by
  obtain ⟨-, -, hnodup, -⟩ := declared_nodup_iff press_assembled
  refine ⟨press_assembled, by decide +kernel, hnodup.mpr ⟨?_, ?_, ?_, ?_, ?_⟩⟩ <;> decide +kernel

end Net

end AutomationNet
