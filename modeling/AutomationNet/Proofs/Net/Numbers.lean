import AutomationNet.Proofs.Net.Live
import AutomationNet.Proofs.Net.Validity
import AutomationNet.Proofs.StructuredText.Condition
import Mathlib.Algebra.GroupWithZero.Nat

/-!
# Numbers of elements

Marks and weights that are given as numbers pass through their texts on the way into a net. A mark
is a count of 64 bits, but its text is read as a signed number, so that the upper half of the counts
is written and never read back.

* `Numeral.int64?_ofInt` : the text of a number reads back as this number, if it is signed 64-bit
* `readMark_ofMark`, `readWeight_ofWeight` : what becomes of a number that is given
* `NetDescription.numbered` : a description with other marks and weights
* `NetDescription.Framed` : what is asked of all the rest of a description
* `Net.FailsAt.number` : with a fine rest, it is a number that an assembly fails at
* `Net.assemble_numbered` : **exactly the numbers up to the greatest signed one get into a net, all
  of them unchanged, and any other is told as the fault**
-/

namespace AutomationNet

/-! ## Texts of numbers -/

namespace Numeral

theorem ofInt_natCast (n : Nat) : ofInt n = ofNat n := by
  rw [ofInt, if_neg (Int.not_lt.mpr (Int.natCast_nonneg n)), Int.natAbs_natCast, ofNat]

theorem int?_of_isDigit {text : List Char} (h : ∀ c ∈ text, c.isDigit = true) :
    int? text = (nat? text).map Int.ofNat := by
  unfold int?
  split
  · exact absurd (h '+' List.mem_cons_self) (by decide)
  · exact absurd (h '-' List.mem_cons_self) (by decide)
  · rfl

theorem int?_ofInt (i : Int) : int? (ofInt i).toList = some i := by
  rw [ofInt, String.toList_ofList]
  split
  · rename_i hneg
    have habs : -(i.natAbs : Int) = i := by omega
    rw [int?, nat?_toDigits]
    exact congrArg some habs
  · rename_i hneg
    have hdigits : ∀ c ∈ Nat.toDigits 10 i.natAbs, c.isDigit = true := fun _ hc =>
      Nat.isDigit_of_mem_toDigits (by decide) (by decide) hc
    rw [int?_of_isDigit hdigits, nat?_toDigits, Option.map_some, Int.ofNat_eq_natCast,
      Int.natAbs_of_nonneg (Int.not_lt.mp hneg)]

end Numeral

namespace Blank

theorem trimChars_eq_self {text : List Char} (h : ∀ c ∈ text, isBlank c = false) :
    trimChars text = text := by
  have hdrop : ∀ l : List Char, (∀ c ∈ l, isBlank c = false) → l.dropWhile isBlank = l :=
    fun l hl => List.dropWhile_eq_self_iff.mpr fun hlength => by simp [hl _ (List.getElem_mem hlength)]
  rw [trimChars, hdrop text h, hdrop _ fun c hc => h c (List.mem_reverse.mp hc),
    List.reverse_reverse]

theorem isBlank_of_isDigit {c : Char} (h : c.isDigit = true) : isBlank c = false := by
  have hrange : 48 ≤ c.toNat ∧ c.toNat ≤ 57 := by
    simpa [Char.isDigit, UInt32.le_iff_toNat_le] using h
  simp only [isBlank, Bool.or_eq_false_iff, Bool.and_eq_false_iff, decide_eq_false_iff_not,
    beq_eq_false_iff_ne]
  omega

end Blank

namespace Numeral

theorem trim_ofInt (i : Int) : Blank.trim (ofInt i) = (ofInt i).toList := by
  refine Blank.trimChars_eq_self fun c hc => ?_
  have hdigit : ∀ c ∈ Nat.toDigits 10 i.natAbs, Blank.isBlank c = false := fun c hc =>
    Blank.isBlank_of_isDigit (Nat.isDigit_of_mem_toDigits (by decide) (by decide) hc)
  rw [ofInt, String.toList_ofList] at hc
  split at hc
  · rcases List.mem_cons.mp hc with rfl | hc
    · decide
    · exact hdigit c hc
  · exact hdigit c hc

/-- **The text of a number reads back as this number, if it is a signed number of 64 bits.** -/
theorem int64?_ofInt (i : Int) :
    int64? (Blank.trim (ofInt i)) = if minInt64 ≤ i ∧ i ≤ maxInt64 then some i else none := by
  rw [int64?, trim_ofInt, int?_ofInt, Option.filter_some]
  simp only [Bool.and_eq_true, decide_eq_true_eq]

theorem int64?_ofInt_natCast (n : Nat) :
    int64? (Blank.trim (ofInt n)) = if maxInt64 < n then none else some (n : Int) := by
  have hmin : minInt64 ≤ n := by
    unfold minInt64
    omega
  rw [int64?_ofInt]
  by_cases h : maxInt64 < n
  · rw [if_pos h, if_neg fun hrange => Int.not_le.mpr h hrange.2]
  · rw [if_neg h, if_pos ⟨hmin, Int.not_lt.mp h⟩]

end Numeral

/-! ## Marks and weights -/

theorem readMark_ofMark (id : ElementId) (name : String) (type : DataType) (mark : Nat) :
    readMark (.ofMark id name type mark) =
      if Numeral.maxInt64 < mark then .error (.invalidMark id (Numeral.ofNat mark))
      else if type.capacity < mark then .error (.boolMarkOutOfRange id mark)
      else .ok mark := by
  rw [readMark, PlaceDescription.ofMark, Numeral.int64?_ofInt_natCast, Numeral.ofInt_natCast]
  by_cases h : Numeral.maxInt64 < mark
  · rw [if_pos h, if_pos h]
  rw [if_neg h, if_neg h]
  -- A signed number never exceeds a counting place, only a flag.
  have hcapacity : type.capacity < mark ↔ type = .bool ∧ 1 < (mark : Int) := by
    cases type with
    | int =>
      have hfits : ¬ Numeral.maxNat64 < mark := by
        simp only [Numeral.maxInt64] at h
        simp only [Numeral.maxNat64]
        omega
      exact ⟨fun hover => absurd hover hfits, fun hbool => absurd hbool.1 (by decide)⟩
    | bool => exact ⟨fun hover => ⟨rfl, Int.ofNat_lt.mpr hover⟩, fun hbool => Int.ofNat_lt.mp hbool.2⟩
  simp only [hcapacity, Int.not_lt.mpr (Int.natCast_nonneg mark), if_false, Int.toNat_natCast]

theorem readWeight_ofWeight (id place transition : ElementId) (kind : ArcKind) (weight : Nat) :
    readWeight (.ofWeight id place transition kind weight) =
      if Numeral.maxInt64 < weight then .error (.invalidWeight id (Numeral.ofNat weight))
      else if weight = 0 then .error (.nonPositiveWeight id)
      else .ok weight := by
  rw [readWeight, ArcDescription.ofWeight, Numeral.int64?_ofInt_natCast, Numeral.ofInt_natCast]
  by_cases h : Numeral.maxInt64 < weight
  · rw [if_pos h, if_pos h]
  have hzero : (weight : Int) ≤ 0 ↔ weight = 0 := by omega
  rw [if_neg h, if_neg h]
  simp only [hzero, Int.toNat_natCast]

theorem readMark_ofMark_eq_ok {id : ElementId} {name : String} {type : DataType} {mark m : Nat} :
    readMark (.ofMark id name type mark) = .ok m ↔
      m = mark ∧ mark ≤ type.capacity ∧ (mark : Int) ≤ Numeral.maxInt64 := by
  rw [readMark_ofMark]
  split
  · rename_i hbeyond
    exact ⟨nofun, fun h => absurd h.2.2 (Int.not_le.mpr hbeyond)⟩
  rename_i hsigned
  split
  · rename_i hover
    exact ⟨nofun, fun h => absurd h.2.1 (Nat.not_le.mpr hover)⟩
  · rename_i hfits
    rw [Except.ok.injEq, eq_comm, iff_self_and]
    exact fun _ => ⟨Nat.not_lt.mp hfits, Int.not_lt.mp hsigned⟩

theorem readWeight_ofWeight_eq_ok {id place transition : ElementId} {kind : ArcKind}
    {weight w : Nat} :
    readWeight (.ofWeight id place transition kind weight) = .ok w ↔
      w = weight ∧ 1 ≤ weight ∧ (weight : Int) ≤ Numeral.maxInt64 := by
  rw [readWeight_ofWeight]
  split
  · rename_i hbeyond
    exact ⟨nofun, fun h => absurd h.2.2 (Int.not_le.mpr hbeyond)⟩
  rename_i hsigned
  split
  · rename_i hzero
    exact ⟨nofun, fun h => absurd hzero (Nat.one_le_iff_ne_zero.mp h.2.1)⟩
  · rename_i hpos
    rw [Except.ok.injEq, eq_comm, iff_self_and]
    exact fun _ => ⟨Nat.one_le_iff_ne_zero.mpr hpos, Int.not_lt.mp hsigned⟩

/-! ## Descriptions -/

namespace NetDescription

/-- The description with marks and weights that are given as numbers, by identifier. -/
def numbered (d : NetDescription) (marks weights : ElementId → Nat) : NetDescription :=
  { d with
    places := d.places.map fun p => .ofMark p.id p.name p.type (marks p.id)
    arcs := d.arcs.map fun a => .ofWeight a.id a.place a.transition a.kind (weights a.id) }

/-- What is asked of a description, apart from its marks and weights. -/
structure Framed (d : NetDescription) : Prop where
  inputs_nodup : d.inputNames.Nodup
  ids_nodup : d.ids.Nodup
  delays : ∀ t ∈ d.transitions, t.DelayOk
  priorities : ∀ t ∈ d.transitions, t.PriorityOk
  guards : ∀ t ∈ d.transitions, t.GuardOk d.inputNames
  arc_place : ∀ a ∈ d.arcs, ∃ p ∈ d.places, p.id = a.place
  arc_transition : ∀ a ∈ d.arcs, ∃ t ∈ d.transitions, t.id = a.transition

variable {d : NetDescription}

theorem Valid.framed (h : d.Valid) : d.Framed where
  inputs_nodup := h.inputs_nodup
  ids_nodup := h.ids_nodup
  delays := h.delays
  priorities := h.priorities
  guards := h.guards
  arc_place := h.arc_place
  arc_transition := h.arc_transition

theorem ids_numbered (d : NetDescription) (marks weights : ElementId → Nat) :
    (d.numbered marks weights).ids = d.ids := by
  simp only [ids, describedIds, numbered, List.map_map]
  rfl

theorem framed_numbered (d : NetDescription) (marks weights : ElementId → Nat) :
    (d.numbered marks weights).Framed ↔ d.Framed := by
  have hids := d.ids_numbered marks weights
  have hplace : (∀ a ∈ (d.numbered marks weights).arcs,
      ∃ p ∈ (d.numbered marks weights).places, p.id = a.place) ↔
      ∀ a ∈ d.arcs, ∃ p ∈ d.places, p.id = a.place := by
    simp [numbered, PlaceDescription.ofMark, ArcDescription.ofWeight]
  have htransition : (∀ a ∈ (d.numbered marks weights).arcs,
      ∃ t ∈ d.transitions, t.id = a.transition) ↔
      ∀ a ∈ d.arcs, ∃ t ∈ d.transitions, t.id = a.transition := by
    simp [numbered, ArcDescription.ofWeight]
  constructor
  · exact fun h => ⟨h.inputs_nodup, hids ▸ h.ids_nodup, h.delays, h.priorities, h.guards,
      hplace.mp h.arc_place, htransition.mp h.arc_transition⟩
  · exact fun h => ⟨h.inputs_nodup, hids ▸ h.ids_nodup, h.delays, h.priorities, h.guards,
      hplace.mpr h.arc_place, htransition.mpr h.arc_transition⟩

end NetDescription

/-! ## Errors about numbers -/

/-- An identifier that is described later is not in use yet, if none is described twice. -/
theorem Draft.Holds.not_mem_ids {draft : Draft} {inputs : List String} {ps : List PlaceDescription}
    {ts : List TransitionDescription} {as : List ArcDescription} (h : draft.Holds inputs ps ts as)
    {id : ElementId} {after : List ElementId}
    (hnodup : (describedIds ps ts as ++ id :: after).Nodup) : id ∉ draft.ids := fun hmem =>
  (List.nodup_append.mp hnodup).2.2 id (h.ids.1.mem_iff.mp hmem) id List.mem_cons_self rfl

namespace Net

variable {d : NetDescription}

/-- With a fine rest, it is a number that an assembly fails at. -/
theorem FailsAt.number {e : AssemblyError} (h : FailsAt d e) (hframed : d.Framed) :
    (∃ p ∈ d.places, readMark p = .error e) ∨ ∃ a ∈ d.arcs, readWeight a = .error e := by
  have hnodup := hframed.ids_nodup
  cases h with
  | input herror =>
    rcases checkInputs_cases [] d.inputNames with ⟨hok, -⟩ | ⟨name, -, hcount⟩
    · cases herror.symm.trans hok
    · exact absurd hcount
        (Nat.not_lt.mpr (List.nodup_iff_count_le_one.mp hframed.inputs_nodup name))
  | @place done p rest draft hsplit hdraft herror =>
    have hfresh := hdraft.not_mem_ids (NetDescription.ids_of_places hsplit ▸ hnodup)
    have hread := (Draft.addPlace_error_cases herror).resolve_right fun htwice => hfresh htwice.2
    exact .inl ⟨p, hsplit ▸ List.mem_append_right done List.mem_cons_self, hread⟩
  | @transition done t rest draft hsplit hdraft herror =>
    have ht : t ∈ d.transitions := hsplit ▸ List.mem_append_right done List.mem_cons_self
    have hfresh := hdraft.not_mem_ids (NetDescription.ids_of_transitions hsplit ▸ hnodup)
    obtain ⟨-, hdelay | hpriority | hguard | hmem⟩ := Draft.addTransition_eq_error herror
    · exact absurd (hframed.delays t ht) hdelay
    · exact absurd (hframed.priorities t ht) hpriority
    · exact absurd (hframed.guards t ht) hguard
    · exact absurd hmem hfresh
  | @arc done a rest draft hsplit hdraft herror =>
    have ha : a ∈ d.arcs := hsplit ▸ List.mem_append_right done List.mem_cons_self
    have hfresh := hdraft.not_mem_ids (NetDescription.ids_of_arcs hsplit ▸ hnodup)
    rcases Draft.addArc_error_cases herror with
      hread | ⟨-, hnone⟩ | ⟨-, hnone⟩ | ⟨-, hmem⟩
    · exact .inr ⟨a, ha, hread⟩
    · obtain ⟨p, hp, hname⟩ := hframed.arc_place a ha
      obtain ⟨place, hplace, hbecomes⟩ := exists_of_forall₂ hdraft.places.flip hp
      exact absurd (hbecomes.id_eq.trans hname)
        (hdraft.keyed.places.ne_of_get?_eq_none hnone hplace)
    · obtain ⟨t, ht, hname⟩ := hframed.arc_transition a ha
      obtain ⟨transition, htransition, hbecomes⟩ := exists_of_forall₂ hdraft.transitions.flip ht
      exact absurd (hbecomes.id_eq.trans hname)
        (hdraft.keyed.transitions.ne_of_get?_eq_none hnone htransition)
    · exact absurd hmem hfresh

theorem numbers_of_holds {marks weights : ElementId → Nat} {draft : Draft} {inputs : List String}
    {ts : List TransitionDescription} (h : draft.Holds inputs (d.numbered marks weights).places ts
      (d.numbered marks weights).arcs) :
    draft.places.toList.map (fun place => (place.id, place.initialMark)) =
      d.places.map (fun p => (p.id, marks p.id)) ∧
    draft.places.toList.map (·.initialMark) = d.places.map (fun p => marks p.id) ∧
    draft.arcs.toList.map (fun arc => (arc.id, arc.weight)) =
      d.arcs.map (fun a => (a.id, weights a.id)) := by
  -- What was read is the number whose text was written, whether or not it is within its range.
  have hplaces := List.forall₂_map_left_iff.mp h.places
  have harcs := List.forall₂_map_left_iff.mp h.arcs
  refine ⟨map_eq_of_forall₂ (fun p place hp => ?_) hplaces,
    map_eq_of_forall₂ (fun p place hp => ?_) hplaces,
    map_eq_of_forall₂ (fun a arc ha => ?_) harcs⟩
  · rw [hp.id_eq, (readMark_ofMark_eq_ok.mp hp.mark_eq).1]
    rfl
  · exact (readMark_ofMark_eq_ok.mp hp.mark_eq).1
  · rw [ha.id_eq, (readWeight_ofWeight_eq_ok.mp ha.weight_eq).1]
    rfl

/-- With a fine rest, it is one of the numbers that is told as the fault. -/
theorem number_of_assemble_eq_error (hframed : d.Framed) {marks weights : ElementId → Nat}
    {e : AssemblyError} (h : assemble (d.numbered marks weights) = .error e) :
    (∃ p ∈ d.places, readMark (.ofMark p.id p.name p.type (marks p.id)) = .error e) ∨
      ∃ a ∈ d.arcs,
        readWeight (.ofWeight a.id a.place a.transition a.kind (weights a.id)) = .error e := by
  rcases assemble_cases (d.numbered marks weights) with ⟨_, -, -, hok⟩ | ⟨e', hfails, herror⟩
  · cases h.symm.trans hok
  cases h.symm.trans herror
  rcases hfails.number ((d.framed_numbered marks weights).mpr hframed) with
    ⟨p', hp', hread⟩ | ⟨a', ha', hread⟩
  · obtain ⟨p, hp, rfl⟩ := List.mem_map.mp hp'
    exact .inl ⟨p, hp, hread⟩
  · obtain ⟨a, ha, rfl⟩ := List.mem_map.mp ha'
    exact .inr ⟨a, ha, hread⟩

/-! ## Result -/

/-- **Which marks and weights get into a net.** Whatever numbers a description is given, it is
assembled, and with these very numbers, exactly if its rest is fine, the marks are within capacity,
the weights positive and all of them signed 64-bit numbers. Of numbers within their own ranges only
those beyond the signed ones are faults, each told with its element. -/
theorem assemble_numbered (d : NetDescription) (marks weights : ElementId → Nat) :
    ((∃ net, assemble (d.numbered marks weights) = .ok net) ↔ d.Framed ∧
      (∀ p ∈ d.places, marks p.id ≤ p.type.capacity ∧ (marks p.id : Int) ≤ Numeral.maxInt64) ∧
      ∀ a ∈ d.arcs, 1 ≤ weights a.id ∧ (weights a.id : Int) ≤ Numeral.maxInt64) ∧
    (∀ net, assemble (d.numbered marks weights) = .ok net →
      net.places.toList.map (fun place => (place.id, place.initialMark)) =
        d.places.map (fun p => (p.id, marks p.id)) ∧
      (LiveNet.ofNet net).marking.toList = d.places.map (fun p => marks p.id) ∧
      net.arcs.toList.map (fun arc => (arc.id, arc.weight)) =
        d.arcs.map (fun a => (a.id, weights a.id))) ∧
    (d.Framed → (∀ p ∈ d.places, marks p.id ≤ p.type.capacity) → (∀ a ∈ d.arcs, 1 ≤ weights a.id) →
      ∀ e, assemble (d.numbered marks weights) = .error e →
        (∃ p ∈ d.places, Numeral.maxInt64 < marks p.id ∧
          e = .invalidMark p.id (Numeral.ofNat (marks p.id))) ∨
        ∃ a ∈ d.arcs, Numeral.maxInt64 < weights a.id ∧
          e = .invalidWeight a.id (Numeral.ofNat (weights a.id))) := by
  refine ⟨⟨fun ⟨net, hok⟩ => ?_, fun ⟨hframed, hmarks, hweights⟩ => ?_⟩, fun net hok => ?_,
    fun hframed hmarks hweights e herror => ?_⟩
  · rcases assemble_cases (d.numbered marks weights) with ⟨draft, hinputs, hdraft, -⟩ | ⟨e, -, herror⟩
    · have hvalid := valid_of_holds hinputs hdraft
      refine ⟨(d.framed_numbered marks weights).mp hvalid.framed, fun p hp => ?_, fun a ha => ?_⟩
      · obtain ⟨m, hm⟩ := readMark_ok_iff.mpr (hvalid.marks _ (List.mem_map_of_mem hp))
        exact (readMark_ofMark_eq_ok.mp hm).2
      · obtain ⟨w, hw⟩ := readWeight_ok_iff.mpr (hvalid.weights _ (List.mem_map_of_mem ha))
        exact (readWeight_ofWeight_eq_ok.mp hw).2
    · cases hok.symm.trans herror
  · cases hassemble : assemble (d.numbered marks weights) with
    | ok net => exact ⟨net, rfl⟩
    | error e =>
      rcases number_of_assemble_eq_error hframed hassemble with ⟨p, hp, hread⟩ | ⟨a, ha, hread⟩
      · cases hread.symm.trans (readMark_ofMark_eq_ok.mpr ⟨rfl, hmarks p hp⟩)
      · cases hread.symm.trans (readWeight_ofWeight_eq_ok.mpr ⟨rfl, hweights a ha⟩)
  · obtain ⟨draft, hdraft, rfl⟩ := exists_draft hok
    exact numbers_of_holds hdraft
  · rcases number_of_assemble_eq_error hframed herror with ⟨p, hp, hread⟩ | ⟨a, ha, hread⟩
    · rw [readMark_ofMark, if_neg (Nat.not_lt.mpr (hmarks p hp))] at hread
      split at hread
      · rename_i hbeyond
        cases hread
        exact .inl ⟨p, hp, hbeyond, rfl⟩
      · cases hread
    · rw [readWeight_ofWeight, if_neg (Nat.one_le_iff_ne_zero.mp (hweights a ha))] at hread
      split at hread
      · rename_i hbeyond
        cases hread
        exact .inr ⟨a, ha, hbeyond, rfl⟩
      · cases hread

/-- A store of parts that is taken from. -/
def store : NetDescription where
  places := [⟨"P1", "parts", .int, "", []⟩]
  transitions := [{ id := "T1", name := "take", delay := "" }]
  arcs := [⟨"A1", "P1", "T1", .input, "", []⟩]

theorem store_framed : store.Framed where
  inputs_nodup := List.nodup_nil
  ids_nodup := by decide
  delays := List.forall_mem_singleton.mpr (.inl rfl)
  priorities := List.forall_mem_singleton.mpr nofun
  guards := List.forall_mem_singleton.mpr nofun
  arc_place := by decide
  arc_transition := by decide

/-- A store can be described as filled to half of what it holds, but not beyond. -/
theorem store_numbered :
    (∃ net, assemble (store.numbered (fun _ => 2 ^ 63 - 1) fun _ => 2 ^ 63 - 1) = .ok net ∧
      (LiveNet.ofNet net).marking.toList = [2 ^ 63 - 1]) ∧
    ∀ net, assemble (store.numbered (fun _ => 2 ^ 63) fun _ => 1) ≠ .ok net := by
  obtain ⟨⟨-, hbuilds⟩, hnumbers, -⟩ :=
    assemble_numbered store (fun _ => 2 ^ 63 - 1) fun _ => 2 ^ 63 - 1
  obtain ⟨⟨hbuilt, -⟩, -⟩ := assemble_numbered store (fun _ => 2 ^ 63) fun _ => 1
  obtain ⟨net, hok⟩ := hbuilds ⟨store_framed, by decide +kernel, by decide +kernel⟩
  refine ⟨⟨net, hok, (hnumbers net hok).2.1⟩, fun net hok => ?_⟩
  exact absurd (hbuilt ⟨net, hok⟩).2.1 (by decide +kernel)

/-- The first mark beyond the signed numbers is told to be no integer. -/
theorem store_refused :
    ¬ ∀ (d : NetDescription) (marks weights : ElementId → Nat), d.Framed →
      (∀ p ∈ d.places, marks p.id ≤ p.type.capacity) →
      (∀ a ∈ d.arcs, 1 ≤ weights a.id ∧ weights a.id ≤ Numeral.maxNat64) →
      ∃ net, assemble (d.numbered marks weights) = .ok net := by
  intro h
  have herror : assemble (store.numbered (fun _ => 2 ^ 63) fun _ => 1) =
      .error (.invalidMark "P1" "9223372036854775808") := by decide +kernel
  obtain ⟨net, hok⟩ := h store (fun _ => 2 ^ 63) (fun _ => 1) store_framed (by decide +kernel)
    (by decide +kernel)
  cases hok.symm.trans herror

end Net

end AutomationNet
