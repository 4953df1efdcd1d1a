import AutomationNet.Proofs.Net.Assembled
import AutomationNet.StructuredText.Program
import AutomationNet.Text.Reader

/-!
# Conditions of arcs, as they are read

The texts of a program ask of the places of a transition what its arcs ask of them, one text for
each arc. A text is read by the name of its place.

* `Test.read?`, `Test.Says` : the test that a text is for a given name, and what it says of a mark
* `Test.read?_text` : **a test that is written reads back as itself**
* `Arc.ConditionHolds`, `Net.ConditionHolds` : the text of an arc, or all texts of a transition, hold
* `Arc.Overweight` : an arc that asks a flag for more than one token
* `Net.conditionHolds_iff_arcsEnabled` : **texts and arcs agree, but for overweight arcs**
-/

namespace AutomationNet

theorem Reader.literal_append (word rest : List Char) :
    Reader.literal word (word ++ rest) = some ((), rest) := by
  simp [Reader.literal]

theorem Reader.literal_eq_none {word text : List Char} (h : ¬ word <+: text) :
    Reader.literal word text = none := by
  simp [Reader.literal, h]

theorem Numeral.nat?_toDigits (n : Nat) : Numeral.nat? (Nat.toDigits 10 n) = some n := by
  have hdigits : ∀ c ∈ Nat.toDigits 10 n, c.isDigit := fun _ hc =>
    Nat.isDigit_of_mem_toDigits (by decide) (by decide) hc
  rw [Numeral.nat?, Nat.ofDigitChars_ten_toDigits, List.all_eq_true.mpr hdigits]
  simp [Nat.toDigits_ne_nil]

namespace StructuredText.Test

/-! ## Reading a text -/

def name : Test → String
  | .isSet name => name
  | .isClear name => name
  | .atLeast name _ => name
  | .below name _ => name

/-- What a test asks of a mark. -/
def holds : Test → (mark : Nat) → Bool
  | .isSet _, mark => mark != 0
  | .isClear _, mark => mark == 0
  | .atLeast _ bound, mark => bound ≤ mark
  | .below _ bound, mark => mark < bound

/-- The numeral after a given beginning. -/
def bound? (beginning text : String) : Option Nat :=
  (Reader.literal beginning.toList text.toList).bind fun (_, rest) => Numeral.nat? rest

/-- The test that a text is, if it is one of the variable of a name. -/
def read? (name text : String) : Option Test :=
  if text = name then some (.isSet name)
  else if text = "NOT " ++ name then some (.isClear name)
  else match bound? (name ++ " >= ") text with
    | some bound => some (.atLeast name bound)
    | none => (bound? (name ++ " < ") text).map (.below name)

theorem bound?_append (beginning : String) (n : Nat) :
    bound? beginning (beginning ++ Numeral.ofNat n) = some n := by
  rw [bound?, String.toList_append, Reader.literal_append, Numeral.ofNat, String.toList_ofList]
  exact Numeral.nat?_toDigits n

/-- **A test that is written reads back as itself.** -/
theorem read?_text (test : Test) : read? test.name test.text = some test := by
  -- A text has the letters of its word or sign once more than the name.
  have hcount {a b : String} (c : Char) (h : a.toList.count c ≠ b.toList.count c) : a ≠ b :=
    fun hab => h (hab ▸ rfl)
  cases test with
  | isSet name => exact if_pos rfl
  | isClear name =>
    have hname : "NOT " ++ name ≠ name := hcount 'N' (by simp)
    rw [Test.name, text, read?, if_neg hname, if_pos rfl]
  | atLeast name bound =>
    have hname : name ++ " >= " ++ Numeral.ofNat bound ≠ name := hcount '>' (by simp)
    have hnot : name ++ " >= " ++ Numeral.ofNat bound ≠ "NOT " ++ name := hcount '>' (by simp)
    rw [Test.name, text, read?, if_neg hname, if_neg hnot, bound?_append]
  | below name bound =>
    have hname : name ++ " < " ++ Numeral.ofNat bound ≠ name := hcount '<' (by simp)
    have hnot : name ++ " < " ++ Numeral.ofNat bound ≠ "NOT " ++ name := hcount '<' (by simp)
    have hsign : bound? (name ++ " >= ") (name ++ " < " ++ Numeral.ofNat bound) = none := by
      rw [bound?, Reader.literal_eq_none]
      · rfl
      · simp [List.append_assoc, List.prefix_append_right_inj]
    rw [Test.name, text, read?, if_neg hname, if_neg hnot, hsign, bound?_append]
    rfl

def Says (name text : String) (mark : Nat) : Prop :=
  ∃ test ∈ read? name text, test.holds mark = true

theorem says_text (test : Test) (mark : Nat) :
    Says test.name test.text mark ↔ test.holds mark = true := by
  simp [Says, read?_text]

end StructuredText.Test

/-! ## What the text of an arc says -/

open StructuredText

namespace Arc

def condition? (arc : Arc) (place : Place) : Option String := (arc.test? place).map (·.text)

/-- Whether the text of an arc holds; without a text there is nothing to ask. -/
def ConditionHolds (arc : Arc) (place : Place) (mark : Nat) : Prop :=
  ∀ text ∈ arc.condition? place, Test.Says place.name text mark

/-- An arc that asks its place for more tokens than fit into it, unless it only gives them. -/
def Overweight (arc : Arc) (place : Place) : Prop :=
  arc.kind ≠ .output ∧ place.type = .bool ∧ 1 < arc.weight

variable {arc : Arc} {place : Place} {mark : Nat}

theorem conditionHolds_iff {test : Test} (htest : arc.test? place = some test)
    (hname : test.name = place.name) :
    arc.ConditionHolds place mark ↔ test.holds mark = true := by
  simp [ConditionHolds, condition?, htest, ← hname, Test.says_text]

theorem conditionHolds_take (hkind : arc.kind = .input ∨ arc.kind = .test) :
    arc.ConditionHolds place mark ↔
      if place.type = .bool ∨ arc.weight = 1 then mark ≠ 0 else arc.weight ≤ mark := by
  by_cases hname : place.type = .bool ∨ arc.weight = 1
  · have htest : arc.test? place = some (.isSet place.name) := by
      rcases hkind with hkind | hkind <;> simp only [test?, hkind, if_pos hname]
    rw [conditionHolds_iff htest rfl, if_pos hname]
    simp [Test.holds]
  · have htest : arc.test? place = some (.atLeast place.name arc.weight) := by
      rcases hkind with hkind | hkind <;> simp only [test?, hkind, if_neg hname]
    rw [conditionHolds_iff htest rfl, if_neg hname]
    simp [Test.holds]

theorem conditionHolds_inhibitor (hkind : arc.kind = .inhibitor) :
    arc.ConditionHolds place mark ↔
      if place.type = .bool ∨ arc.weight = 1 then mark = 0 else mark < arc.weight := by
  by_cases hname : place.type = .bool ∨ arc.weight = 1
  · have htest : arc.test? place = some (.isClear place.name) := by
      simp only [test?, hkind, if_pos hname]
    rw [conditionHolds_iff htest rfl, if_pos hname]
    simp [Test.holds]
  · have htest : arc.test? place = some (.below place.name arc.weight) := by
      simp only [test?, hkind, if_neg hname]
    rw [conditionHolds_iff htest rfl, if_neg hname]
    simp [Test.holds]

theorem conditionHolds_output (hkind : arc.kind = .output) :
    arc.ConditionHolds place mark ↔ (place.type = .bool → mark = 0) := by
  by_cases htype : place.type = .bool
  · have htest : arc.test? place = some (.isClear place.name) := by
      simp only [test?, hkind, if_pos htype]
    rw [conditionHolds_iff htest rfl]
    simp [Test.holds, htype]
  · have htest : arc.test? place = none := by
      simp only [test?, hkind, if_neg htype]
    simp [ConditionHolds, condition?, htest, htype]

theorem kind_cases (arc : Arc) :
    (arc.kind = .input ∨ arc.kind = .test) ∨ arc.kind = .inhibitor ∨ arc.kind = .output := by
  cases arc.kind <;> simp

theorem allows_take (hkind : arc.kind = .input ∨ arc.kind = .test) (type : DataType) :
    arc.kind.allows type arc.weight mark = true ↔ arc.weight ≤ mark := by
  rcases hkind with hkind | hkind <;> simp [hkind, ArcKind.allows]

/-- If the text of an arc holds but the arc is not enabled, it takes from a flag or tests it. -/
theorem allows_of_conditionHolds (hweight : 0 < arc.weight)
    (hholds : arc.ConditionHolds place mark)
    (h : ¬ (arc.Overweight place ∧ (arc.kind = .input ∨ arc.kind = .test))) :
    arc.kind.allows place.type arc.weight mark = true := by
  rcases arc.kind_cases with hkind | hkind | hkind
  · rw [conditionHolds_take hkind] at hholds
    rw [allows_take hkind]
    have hone : place.type = .bool → arc.weight ≤ 1 := fun htype =>
      Nat.le_of_not_lt fun hlt =>
        h ⟨⟨by rcases hkind with hkind | hkind <;> simp [hkind], htype, hlt⟩, hkind⟩
    split at hholds
    · rename_i hname
      have hle : arc.weight ≤ 1 := hname.elim hone Nat.le_of_eq
      omega
    · exact hholds
  · rw [conditionHolds_inhibitor hkind] at hholds
    rw [hkind, ArcKind.allows, decide_eq_true_eq]
    split at hholds
    · omega
    · exact hholds
  · rw [conditionHolds_output hkind] at hholds
    rw [hkind]
    cases htype : place.type with
    | int => rfl
    | bool => simp [ArcKind.allows, hholds htype]

/-- If an arc is enabled but its text does not hold, it inhibits by a flag that is set. -/
theorem conditionHolds_of_allows (hweight : 0 < arc.weight)
    (hallows : arc.kind.allows place.type arc.weight mark = true)
    (h : ¬ (arc.Overweight place ∧ arc.kind = .inhibitor ∧ mark ≠ 0)) :
    arc.ConditionHolds place mark := by
  rcases arc.kind_cases with hkind | hkind | hkind
  · rw [allows_take hkind] at hallows
    rw [conditionHolds_take hkind]
    split
    · omega
    · exact hallows
  · rw [hkind, ArcKind.allows, decide_eq_true_eq] at hallows
    rw [conditionHolds_inhibitor hkind]
    split
    · rename_i hname
      by_contra hmark
      have hone : ¬ (place.type = .bool ∧ 1 < arc.weight) := fun hover =>
        h ⟨⟨by simp [hkind], hover⟩, hkind, hmark⟩
      have hle : arc.weight ≤ 1 :=
        hname.elim (fun htype => Nat.le_of_not_lt fun hlt => hone ⟨htype, hlt⟩) Nat.le_of_eq
      omega
    · exact hallows
  · rw [conditionHolds_output hkind]
    rw [hkind] at hallows
    intro htype
    simpa [htype, ArcKind.allows] using hallows

/-- No mark of a flag is enough for an arc that takes more from it. -/
theorem Overweight.not_allows (h : arc.Overweight place)
    (hkind : arc.kind = .input ∨ arc.kind = .test) (hmark : mark ≤ place.type.capacity) :
    ¬ arc.kind.allows place.type arc.weight mark = true := by
  obtain ⟨-, htype, hweight⟩ := h
  rw [htype, DataType.capacity] at hmark
  rw [allows_take hkind]
  omega

theorem Overweight.not_conditionHolds (h : arc.Overweight place) (hkind : arc.kind = .inhibitor)
    (hmark : mark ≠ 0) : ¬ arc.ConditionHolds place mark := by
  rw [conditionHolds_inhibitor hkind, if_pos (.inl h.2.1)]
  exact hmark

end Arc

/-! ## The condition of a transition -/

namespace Net

/-- Whether the texts of all arcs of a transition hold. -/
def ConditionHolds (net : Net) (m : Marking) (t : Ref Transition) : Prop :=
  ∀ arc ∈ net.attached t, arc.ConditionHolds (net.place arc.place) (m.mark arc.place)

variable {net : Net}

theorem text_tests_blockOf (net : Net) (t : Ref Transition) :
    (Program.blockOf net t).tests.map (·.text) =
      (net.attached t).filterMap fun arc => arc.condition? (net.place arc.place) :=
  List.map_filterMap ..

theorem mem_arcs_of_attached {t : Ref Transition} {arc : Arc} (h : arc ∈ net.attached t) :
    arc ∈ net.arcs.toList := by
  simp only [attached, List.mem_append] at h
  rcases h with ((h | h) | h) | h <;> exact mem_arcs_of_mem_arcsOf h

/-! ### A switch that is asked for two tokens -/

/-- A flag is set, and an arc takes two tokens from it. -/
def switch : NetDescription where
  places := [⟨"P1", "on", .bool, "1", []⟩]
  transitions := [{ id := "T1", name := "off" }]
  arcs := [⟨"A1", "P1", "T1", .input, "2", []⟩]

def switchNet : Net where
  places := ⟨[⟨"P1", "on", .bool, 1⟩]⟩
  transitions := ⟨[⟨"T1", "off", {}, 0, .zero⟩]⟩
  arcs := ⟨[⟨"A1", ⟨0⟩, ⟨0⟩, .input, 2⟩]⟩
  attachments := ⟨[{ inputs := [⟨0⟩] }]⟩
  placeKeys := ⟨[("P1", ⟨0⟩)]⟩
  transitionKeys := ⟨[("T1", ⟨0⟩)]⟩
  order := [⟨0⟩]

theorem switch_assembled : Net.assemble switch = .ok switchNet :=
  Net.assemble_eq_ok (by decide +kernel) (by decide +kernel)

theorem switch_marked (r : Ref Place) (place : Place)
    (h : switchNet.places.get? r = some place) :
    switchNet.initialMarking.mark r ≤ place.type.capacity := by
  match r, h with
  | ⟨0⟩, h =>
    obtain rfl := Option.some.inj h
    decide

theorem switch_conditionHolds : switchNet.ConditionHolds switchNet.initialMarking ⟨0⟩ := by
  intro arc harc
  obtain rfl : arc = ⟨"A1", ⟨0⟩, ⟨0⟩, .input, 2⟩ := List.mem_singleton.mp harc
  rw [Arc.conditionHolds_take (.inl rfl)]
  decide

/-- The arcs do not always ask what their texts ask: the switch is on, but never has two tokens. -/
theorem switch_differs :
    ¬ ∀ (description : NetDescription) (net : Net) (m : Marking) (t : Ref Transition),
      Net.assemble description = .ok net →
        (∀ r place, net.places.get? r = some place → m.mark r ≤ place.type.capacity) →
          (net.ConditionHolds m t ↔ net.arcsEnabled m t = true) := by
  intro h
  have hiff := h switch switchNet switchNet.initialMarking ⟨0⟩ switch_assembled switch_marked
  have hblocked : switchNet.arcsEnabled switchNet.initialMarking ⟨0⟩ = false := by decide
  rw [hblocked] at hiff
  exact absurd (hiff.mp switch_conditionHolds) Bool.false_ne_true

/-! ### Result -/

/-- **The texts in the block of a transition and its arcs agree, but for arcs that ask a flag for more
than one token.** Such an arc lets the texts hold where it takes from a flag or tests it, and keeps
them from holding where it inhibits by a flag that is set. -/
theorem conditionHolds_iff_arcsEnabled {description : NetDescription}
    (hnet : Net.assemble description = .ok net) {m : Marking}
    (hm : ∀ r place, net.places.get? r = some place → m.mark r ≤ place.type.capacity)
    (t : Ref Transition) :
    (Program.blockOf net t).tests.map (·.text) =
      (net.attached t).filterMap (fun arc => arc.condition? (net.place arc.place)) ∧
    ((∀ arc ∈ net.attached t, ¬ arc.Overweight (net.place arc.place)) →
      (net.ConditionHolds m t ↔ net.arcsEnabled m t = true)) ∧
    (¬ (net.ConditionHolds m t ↔ net.arcsEnabled m t = true) ↔
      (net.ConditionHolds m t ∧ ∃ arc ∈ net.attached t, arc.Overweight (net.place arc.place) ∧
        (arc.kind = .input ∨ arc.kind = .test)) ∨
      (net.arcsEnabled m t = true ∧ ∃ arc ∈ net.attached t, arc.Overweight (net.place arc.place) ∧
        arc.kind = .inhibitor ∧ m.mark arc.place ≠ 0)) := by
  have hsound := Net.assemble_sound hnet
  have hweight : ∀ arc ∈ net.attached t, 0 < arc.weight := fun arc harc =>
    hsound.weight_pos arc (mem_arcs_of_attached harc)
  have hmark : ∀ arc ∈ net.attached t,
      m.mark arc.place ≤ (net.place arc.place).type.capacity := by
    intro arc harc
    have hplace := Table.get?_eq_some (hsound.place_lt arc (mem_arcs_of_attached harc))
    rw [place, hplace]
    exact hm _ _ hplace
  rw [arcsEnabled, List.all_eq_true]
  have henabled : net.ConditionHolds m t →
      ¬ (∃ arc ∈ net.attached t, arc.Overweight (net.place arc.place) ∧
        (arc.kind = .input ∨ arc.kind = .test)) →
      ∀ arc ∈ net.attached t, net.arcEnabled m arc = true := fun hholds hnone arc harc =>
    Arc.allows_of_conditionHolds (hweight arc harc) (hholds arc harc)
      fun hover => hnone ⟨arc, harc, hover⟩
  have hholds : (∀ arc ∈ net.attached t, net.arcEnabled m arc = true) →
      ¬ (∃ arc ∈ net.attached t, arc.Overweight (net.place arc.place) ∧
        arc.kind = .inhibitor ∧ m.mark arc.place ≠ 0) →
      net.ConditionHolds m t := fun hallows hnone arc harc =>
    Arc.conditionHolds_of_allows (hweight arc harc) (hallows arc harc)
      fun hover => hnone ⟨arc, harc, hover⟩
  refine ⟨text_tests_blockOf net t, fun hnone => ⟨fun h => henabled h ?_, fun h => hholds h ?_⟩,
    fun hdiffer => ?_, ?_⟩
  · rintro ⟨arc, harc, hover, -⟩
    exact hnone arc harc hover
  · rintro ⟨arc, harc, hover, -⟩
    exact hnone arc harc hover
  · by_cases hcondition : net.ConditionHolds m t
    · refine .inl ⟨hcondition, ?_⟩
      by_contra hnone
      exact hdiffer (iff_of_true hcondition (henabled hcondition hnone))
    · have hallows : ∀ arc ∈ net.attached t, net.arcEnabled m arc = true := by
        by_contra hblocked
        exact hdiffer (iff_of_false hcondition hblocked)
      refine .inr ⟨hallows, ?_⟩
      by_contra hnone
      exact hcondition (hholds hallows hnone)
  · rintro (⟨hcondition, arc, harc, hover, hkind⟩ | ⟨hallows, arc, harc, hover, hkind, hset⟩) hiff
    · exact hover.not_allows hkind (hmark arc harc) (hiff.mp hcondition arc harc)
    · exact hover.not_conditionHolds hkind hset (hiff.mpr hallows arc harc)

theorem switch_condition_iff :
    ¬ (switchNet.ConditionHolds switchNet.initialMarking ⟨0⟩ ↔
      switchNet.arcsEnabled switchNet.initialMarking ⟨0⟩ = true) := by
  obtain ⟨-, -, hdiffer⟩ := conditionHolds_iff_arcsEnabled switch_assembled switch_marked ⟨0⟩
  refine hdiffer.mpr (.inl ⟨switch_conditionHolds, _, List.mem_singleton_self _, ?_, .inl rfl⟩)
  exact ⟨nofun, rfl, by decide⟩

end Net

end AutomationNet
