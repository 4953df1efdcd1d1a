import AutomationNet.Net.Marking
import AutomationNet.Proofs.Net.Draft
import Mathlib.Data.List.Sort

/-!
# Assembled nets

What a net is known to satisfy once its assembly has succeeded.

* `readMark_le_capacity`, `readWeight_pos` : the numbers of the elements are within their ranges
* `mergeSort_cons_eq`, `mergeSort_eq_insertionSort` : where an item comes in the order
* `Fit` : marks within capacity, references that resolve, positive weights
* `Net.Sound` : the elements fit, identifiers lead to them, every transition has its arcs attached,
  and the order lists every transition once
* `Net.assemble_eq_ok` : an assembly that can be run, the order apart
* `Net.assemble_sound` : assembled nets are sound
-/

namespace AutomationNet

/-! ## Numbers -/

theorem int64?_le {text : List Char} {i : Int} (h : Numeral.int64? text = some i) :
    i ≤ Numeral.maxInt64 := by
  rw [Numeral.int64?, Option.filter_eq_some_iff, Bool.and_eq_true, decide_eq_true_eq,
    decide_eq_true_eq] at h
  exact h.2.2

theorem readMark_le_capacity {p : PlaceDescription} {mark : Nat} (h : readMark p = .ok mark) :
    mark ≤ p.type.capacity := by
  unfold readMark at h
  split at h
  · cases h
  · rename_i value hvalue
    have hrange := int64?_le hvalue
    split at h
    · cases h
    · split at h
      · cases h
      · rename_i hneg hbool
        cases h
        cases htype : p.type with
        | int =>
          simp only [DataType.capacity, Numeral.maxNat64]
          simp only [Numeral.maxInt64] at hrange
          omega
        | bool =>
          simp only [htype, true_and] at hbool
          simp only [DataType.capacity]
          omega

theorem readWeight_pos {a : ArcDescription} {weight : Nat} (h : readWeight a = .ok weight) :
    0 < weight := by
  unfold readWeight at h
  split at h
  · cases h
  · split at h
    · cases h
    · rename_i hpos
      cases h
      omega

/-! ## The order -/

section Sorting

variable {α : Type} {key : α → Int}

theorem orderedInsert_append {a : α} {before after : List α} (hbefore : ∀ b ∈ before, key a < key b)
    (hafter : ∀ b ∈ after, key b ≤ key a) :
    (before ++ after).orderedInsert (fun a b => key b ≤ key a) a = before ++ a :: after := by
  induction before with
  | nil =>
    cases after with
    | nil => rfl
    | cons b after => exact List.orderedInsert_cons_of_le _ _ (hafter b List.mem_cons_self)
  | cons b before ih =>
    have hlater : ¬ key b ≤ key a := Int.not_le.mpr (hbefore b List.mem_cons_self)
    rw [List.cons_append, List.orderedInsert_cons, if_neg hlater,
      ih fun c hc => hbefore c (List.mem_cons_of_mem b hc), List.cons_append]

/-- An item goes between those of a greater key and all others. -/
theorem mergeSort_cons_eq (key : α → Int) (a : α) (items : List α) :
    ∃ before after, (a :: items).mergeSort (fun a b => key b ≤ key a) = before ++ a :: after ∧
      items.mergeSort (fun a b => key b ≤ key a) = before ++ after ∧
      (∀ b ∈ before, key a < key b) ∧ ∀ b ∈ after, key b ≤ key a := by
  have htrans : ∀ a b c : α, decide (key b ≤ key a) = true → decide (key c ≤ key b) = true →
      decide (key c ≤ key a) = true := by
    intro a b c hab hbc
    rw [decide_eq_true_eq] at hab hbc ⊢
    exact hbc.trans hab
  have htotal : ∀ a b : α, (decide (key b ≤ key a) || decide (key a ≤ key b)) = true := by
    intro a b
    rw [Bool.or_eq_true, decide_eq_true_eq, decide_eq_true_eq]
    exact Int.le_total _ _
  obtain ⟨before, after, hsorted, hitems, hbefore⟩ := List.mergeSort_cons htrans htotal a items
  have hpairwise := List.pairwise_mergeSort htrans htotal (a :: items)
  rw [hsorted] at hpairwise
  obtain ⟨-, hafter, -⟩ := List.pairwise_append.mp hpairwise
  refine ⟨before, after, hsorted, hitems, fun b hb => ?_, fun b hb => ?_⟩
  · simpa using hbefore b hb
  · exact of_decide_eq_true (List.rel_of_pairwise_cons hafter hb)

/-- Sorting by insertion gives the same list; unlike merging it can be run by `decide`. -/
theorem mergeSort_eq_insertionSort (items : List α) :
    items.mergeSort (fun a b => key b ≤ key a) =
      items.insertionSort fun a b => key b ≤ key a := by
  induction items with
  | nil => rw [List.mergeSort_nil, List.insertionSort_nil]
  | cons a items ih =>
    obtain ⟨before, after, hsorted, hitems, hbefore, hafter⟩ := mergeSort_cons_eq key a items
    rw [hsorted, List.insertionSort_cons, ← ih, hitems, orderedInsert_append hbefore hafter]

end Sorting

/-! ## Sound nets -/

structure Fit (places : Table Place Place) (transitions : Table Transition Transition)
    (arcs : Table Arc Arc) : Prop where
  initialMark_le : ∀ place ∈ places.toList, place.initialMark ≤ place.type.capacity
  place_lt : ∀ arc ∈ arcs.toList, arc.place.index < places.size
  transition_lt : ∀ arc ∈ arcs.toList, arc.transition.index < transitions.size
  weight_pos : ∀ arc ∈ arcs.toList, 0 < arc.weight

theorem Draft.Holds.fit {draft : Draft} {inputs : List String} {ps : List PlaceDescription}
    {ts : List TransitionDescription} {as : List ArcDescription}
    (h : draft.Holds inputs ps ts as) : Fit draft.places draft.transitions draft.arcs where
  initialMark_le place hplace := by
    obtain ⟨p, -, hp⟩ := exists_of_forall₂ h.places hplace
    exact hp.type_eq ▸ readMark_le_capacity hp.mark_eq
  place_lt arc harc := by
    obtain ⟨a, -, ha⟩ := exists_of_forall₂ h.arcs harc
    obtain ⟨_, hget, -⟩ := ha.place_eq
    exact (List.getElem?_eq_some_iff.mp hget).1
  transition_lt arc harc := by
    obtain ⟨a, -, ha⟩ := exists_of_forall₂ h.arcs harc
    obtain ⟨_, hget, -⟩ := ha.transition_eq
    exact (List.getElem?_eq_some_iff.mp hget).1
  weight_pos arc harc := by
    obtain ⟨a, -, ha⟩ := exists_of_forall₂ h.arcs harc
    exact readWeight_pos ha.weight_eq

/-- The elements of the net fit, places and transitions are found by their identifiers, every
transition has its arcs attached, and the order lists every transition once. -/
structure Net.Sound (net : Net) : Prop extends Fit net.places net.transitions net.arcs where
  placeKeys_inverts : net.placeKeys.Inverts net.places (·.id)
  transitionKeys_inverts : net.transitionKeys.Inverts net.transitions (·.id)
  order_perm : net.order.Perm net.transitions.refs
  arcRefs_eq : ∀ t kind, net.arcRefs t kind = refsAt net.arcs t kind

namespace Net

theorem place_of_get? {net : Net} {r : Ref Place} {place : Place}
    (h : net.places.get? r = some place) : net.place r = place := by
  rw [Net.place, h, Option.getD_some]

theorem transition_of_get? {net : Net} {t : Ref Transition} {transition : Transition}
    (h : net.transitions.get? t = some transition) : net.transition t = transition := by
  rw [Net.transition, h, Option.getD_some]

theorem get?_transition {net : Net} {t : Ref Transition} (h : t.index < net.transitions.size) :
    net.transitions.get? t = some (net.transition t) := by
  rw [transition_of_get? (Table.get?_eq_some h), Table.get?_eq_some h]

theorem Sound.order_nodup {net : Net} (h : net.Sound) : net.order.Nodup :=
  h.order_perm.nodup_iff.mpr net.transitions.refs_nodup

theorem Sound.mem_order {net : Net} (h : net.Sound) {t : Ref Transition} :
    t ∈ net.order ↔ t.index < net.transitions.size :=
  h.order_perm.mem_iff.trans Table.mem_refs

theorem Sound.arcsOf_eq {net : Net} (h : net.Sound) (t : Ref Transition) (kind : ArcKind) :
    net.arcsOf t kind = net.arcs.toList.filter fun arc => arc.transition = t ∧ arc.kind = kind := by
  rw [arcsOf, h.arcRefs_eq, filterMap_refsAt]

theorem mem_arcs_of_mem_arcsOf {net : Net} {t : Ref Transition} {kind : ArcKind} {arc : Arc}
    (h : arc ∈ net.arcsOf t kind) : arc ∈ net.arcs.toList := by
  obtain ⟨r, -, hr⟩ := List.mem_filterMap.mp h
  exact List.mem_of_getElem? hr

/-- An assembled net is that of a draft that holds the whole description. -/
theorem exists_draft {description : NetDescription} {net : Net}
    (h : assemble description = .ok net) : ∃ draft : Draft,
      draft.Holds description.inputNames description.places description.transitions
        description.arcs ∧ net = draft.toNet description := by
  rcases assemble_cases description with ⟨draft, -, hdraft, hok⟩ | ⟨e, -, herror⟩
  · cases h.symm.trans hok
    exact ⟨draft, hdraft, rfl⟩
  · cases h.symm.trans herror

/-- A net is assembled if it is but for its order, and this is that of its priorities. -/
theorem assemble_eq_ok {description : NetDescription} {net : Net}
    (h : (assemble description).map (fun built => { built with order := net.order }) = .ok net)
    (horder : net.order = net.transitions.refs.insertionSort fun r s =>
      net.transitions.priorityKey s ≤ net.transitions.priorityKey r) :
    assemble description = .ok net := by
  rcases assemble_cases description with ⟨draft, -, -, hok⟩ | ⟨e, -, herror⟩
  · rw [hok, Except.map, Except.ok.injEq] at h
    have hbuilt : (draft.toNet description).order = net.order := by
      rw [horder, ← h]
      exact mergeSort_eq_insertionSort _
    rw [hok, ← h, ← hbuilt]
  · rw [herror] at h
    cases h

/-- **Assembled nets are sound.** -/
theorem assemble_sound {description : NetDescription} {net : Net}
    (h : assemble description = .ok net) : net.Sound := by
  obtain ⟨draft, hdraft, rfl⟩ := exists_draft h
  exact { hdraft.fit with
    placeKeys_inverts := hdraft.keyed.places
    transitionKeys_inverts := hdraft.keyed.transitions
    order_perm := List.mergeSort_perm _ _
    arcRefs_eq := hdraft.attached.ofKind_eq }

end Net

end AutomationNet
