import AutomationNet.Proofs.Net.Flow
import AutomationNet.Proofs.Net.Operation
import Mathlib.Algebra.Group.Int.Defs

/-!
# What a firing does

A firing succeeds exactly if its transition is enabled and all of its arcs still are. It then
changes the marks of the places around the transition and the wait of the transition, and nothing
else.

* `Net.arcsBetween`, `Net.weightBetween` : the arcs of one kind between a transition and a place
* `Net.two_le_of_clamped` : one input arc alone never takes more than there is
* `LiveNet.Fired` : all that is different after a firing
* `LiveNet.fire_spec` : **when a firing succeeds, and what it leaves**
-/

namespace AutomationNet

namespace Net

variable {net : Net} {m : Marking} {t : Ref Transition} {r : Ref Place} {kind : ArcKind}

/-- The arcs of one kind between a transition and a place. -/
def arcsBetween (net : Net) (t : Ref Transition) (kind : ArcKind) (r : Ref Place) : List Arc :=
  net.arcs.toList.filter fun arc => arc.transition = t ∧ arc.kind = kind ∧ arc.place = r

def weightBetween (net : Net) (t : Ref Transition) (kind : ArcKind) (r : Ref Place) : Nat :=
  ((net.arcsBetween t kind r).map (·.weight)).sum

theorem mem_arcsBetween {arc : Arc} : arc ∈ net.arcsBetween t kind r ↔
    arc ∈ net.arcs.toList ∧ arc.transition = t ∧ arc.kind = kind ∧ arc.place = r := by
  rw [arcsBetween, List.mem_filter, decide_eq_true_eq]

theorem Sound.atPlace_arcsOf (h : net.Sound) (t : Ref Transition) (kind : ArcKind) (r : Ref Place) :
    Arc.atPlace r (net.arcsOf t kind) = net.arcsBetween t kind r := by
  rw [Arc.atPlace, h.arcsOf_eq, List.filter_filter, arcsBetween]
  refine List.filter_congr fun arc _ => ?_
  rw [Bool.eq_iff_iff, Bool.and_eq_true, decide_eq_true_eq, decide_eq_true_eq, decide_eq_true_eq]
  exact and_comm.trans and_assoc

theorem Sound.flow_eq (h : net.Sound) (t : Ref Transition) (kind : ArcKind) (r : Ref Place) :
    net.flow t kind r = net.weightBetween t kind r := by
  rw [flow, h.atPlace_arcsOf, weightBetween]

theorem Sound.mem_arcsOf (h : net.Sound) {arc : Arc} :
    arc ∈ net.arcsOf t kind ↔ arc ∈ net.arcs.toList ∧ arc.transition = t ∧ arc.kind = kind := by
  rw [h.arcsOf_eq, List.mem_filter, decide_eq_true_eq]

theorem Sound.mem_attached (h : net.Sound) {arc : Arc} :
    arc ∈ net.attached t ↔ arc ∈ net.arcs.toList ∧ arc.transition = t := by
  simp only [attached, List.mem_append, h.mem_arcsOf]
  constructor
  · rintro (((⟨hmem, ht, -⟩ | ⟨hmem, ht, -⟩) | ⟨hmem, ht, -⟩) | ⟨hmem, ht, -⟩) <;> exact ⟨hmem, ht⟩
  · rintro ⟨hmem, ht⟩
    cases hkind : arc.kind <;> simp [hmem, ht]

theorem Sound.arcsEnabled_iff (h : net.Sound) (m : Marking) (t : Ref Transition) :
    net.arcsEnabled m t = true ↔
      ∀ arc ∈ net.arcs.toList, arc.transition = t → net.arcEnabled m arc = true := by
  rw [arcsEnabled, List.all_eq_true]
  exact ⟨fun hall arc harc ht => hall arc (h.mem_attached.mpr ⟨harc, ht⟩),
    fun hall arc harc => hall arc (h.mem_attached.mp harc).1 (h.mem_attached.mp harc).2⟩

/-- An input arc that is enabled takes no more than there is, so it takes two of them to do so. -/
theorem two_le_of_clamped
    (hall : ∀ arc ∈ net.arcs.toList, arc.transition = t → net.arcEnabled m arc = true)
    (hclamped : m.mark r < net.weightBetween t .input r) :
    2 ≤ (net.arcsBetween t .input r).length := by
  match harcs : net.arcsBetween t .input r with
  | [] =>
    rw [weightBetween, harcs] at hclamped
    exact absurd hclamped (Nat.not_lt_zero _)
  | [arc] =>
    have hmem : arc ∈ net.arcsBetween t .input r := by rw [harcs]; exact List.mem_singleton_self arc
    obtain ⟨harc, ht, hkind, hr⟩ := mem_arcsBetween.mp hmem
    have henabled := hall arc harc ht
    rw [arcEnabled, hkind, hr, ArcKind.allows, decide_eq_true_eq] at henabled
    rw [weightBetween, harcs] at hclamped
    simp only [List.map_cons, List.map_nil, List.sum_cons, List.sum_nil, Nat.add_zero] at hclamped
    omega
  | _ :: _ :: arcs =>
    rw [List.length_cons, List.length_cons]
    exact Nat.le_add_left 2 _

/-- A place to which a transition has no input or output arc is left alone. -/
theorem Sound.mark_move_of_none (h : net.Sound) (hin : net.arcsBetween t .input r = [])
    (hout : net.arcsBetween t .output r = []) : (net.move m t).mark r = m.mark r := by
  have hnone : ∀ kind, net.arcsBetween t kind r = [] →
      ∀ arc ∈ net.arcsOf t kind, arc.place ≠ r := by
    intro kind hnil arc harc hplace
    have hmem : arc ∈ net.arcsBetween t kind r := by
      obtain ⟨hmem, ht, hkind⟩ := h.mem_arcsOf.mp harc
      exact mem_arcsBetween.mpr ⟨hmem, ht, hkind, hplace⟩
    rw [hnil] at hmem
    exact absurd hmem List.not_mem_nil
  exact mark_move_of_not_mem fun arc harc =>
    (List.mem_append.mp harc).elim (hnone .input hin arc) (hnone .output hout arc)

end Net

namespace LiveNet

variable {net : Net} {live next : LiveNet} {t : Ref Transition}

/-- All that is different after a firing. -/
structure Fired (live next : LiveNet) (t : Ref Transition) : Prop where
  net_eq : next.net = live.net
  /-- A count loses what the input arcs weigh, down to nothing, and gains what the output arcs
  weigh, up to the greatest count. -/
  mark_int : ∀ r, r.index < live.net.places.size → (live.net.place r).type = .int →
    (next.marking.mark r : Int) = min (2 ^ 64 - 1 : Int)
      (max 0 ((live.marking.mark r : Int) - live.net.weightBetween t .input r) +
        live.net.weightBetween t .output r)
  /-- A flag is set by an output arc, and else cleared by an input arc. -/
  mark_bool : ∀ r, r.index < live.net.places.size → (live.net.place r).type = .bool →
    next.marking.mark r =
      if live.net.arcsBetween t .output r ≠ [] then 1
      else if live.net.arcsBetween t .input r ≠ [] then 0
      else live.marking.mark r
  mark_other : ∀ r, live.net.arcsBetween t .input r = [] → live.net.arcsBetween t .output r = [] →
    next.marking.mark r = live.marking.mark r
  /-- A place is asked for more than it holds only by more than one input arc. -/
  clamped : ∀ r, live.marking.mark r < live.net.weightBetween t .input r →
    2 ≤ (live.net.arcsBetween t .input r).length
  ready_self : next.ready t = { live.ready t with remaining := (live.net.transition t).delay }
  ready_other : ∀ u, u ≠ t → next.ready u = live.ready u

theorem fire_eq_ok {firing : Firing} : live.fire t = .ok (next, firing) ↔
    live.canFire t = true ∧ next = live.fired t ∧ firing = live.firing t := by
  unfold fire
  split
  · rename_i hcan
    simp [hcan, eq_comm]
  · rename_i hcan
    simp [hcan]

theorem canFire_iff (hnet : live.net.Sound) : live.canFire t = true ↔ live.isEnabled t = true ∧
    ∀ arc ∈ live.net.arcs.toList, arc.transition = t → live.arcEnabled arc = true := by
  rw [canFire, Bool.and_eq_true]
  exact and_congr_right fun _ => hnet.arcsEnabled_iff live.marking t

theorem Valid.fired_spec (h : live.Valid) (hnet : live.net.Sound) (hcan : live.canFire t = true) :
    Fired live (live.fired t) t := by
  obtain ⟨henabled, hall⟩ := (canFire_iff hnet).mp hcan
  have hlt := lt_of_isEnabled henabled
  have hsize : ∀ r : Ref Place, r.index < live.net.places.size → r.index < live.marking.size :=
    fun r hr => by rwa [h.marking_size]
  refine ⟨net_fired live t, fun r hr htype => ?_, fun r hr htype => ?_, fun r hin hout => ?_,
    fun r hclamped => Net.two_le_of_clamped hall hclamped, ?_, fun u hu => ?_⟩
  · have hmark := h.mark_le r
    rw [htype] at hmark
    have hmove := Net.mark_move_int (t := t) (hsize r hr) htype hmark
    rw [hnet.flow_eq, hnet.flow_eq] at hmove
    rw [LiveNet.fired, hmove]
    simp only [Numeral.maxNat64]
    omega
  · have hmove := Net.mark_move_bool (t := t) (hsize r hr) htype
    rw [hnet.atPlace_arcsOf, hnet.atPlace_arcsOf] at hmove
    rw [LiveNet.fired, hmove]
    simp only [ne_eq, ite_not]
  · exact hnet.mark_move_of_none hin hout
  · rw [ready_fired, if_pos ⟨rfl, hlt⟩]
    rfl
  · rw [ready_fired, if_neg fun heq => hu heq.1.symm]

/-- **When a firing succeeds, and what it leaves.** In a net that any operations have been applied
to, a transition fires exactly if it is enabled and all of its arcs are; if it does not, the net
stays as it is. -/
theorem fire_spec {description : NetDescription} (hnet : Net.assemble description = .ok net)
    (operations : List Operation) (t : Ref Transition) :
    ((∃ next firing, ((ofNet net).operateAll operations).fire t = .ok (next, firing)) ↔
      ((ofNet net).operateAll operations).isEnabled t = true ∧
        ∀ arc ∈ net.arcs.toList, arc.transition = t →
          ((ofNet net).operateAll operations).arcEnabled arc = true) ∧
    (∀ next firing, ((ofNet net).operateAll operations).fire t = .ok (next, firing) →
      Fired ((ofNet net).operateAll operations) next t) ∧
    ∀ e, ((ofNet net).operateAll operations).fire t = .error e →
      (ofNet net).operateAll (operations ++ [.fire t]) = (ofNet net).operateAll operations := by
  have hsound := Net.assemble_sound hnet
  have heq : ((ofNet net).operateAll operations).net = net := net_operateAll _ operations
  have hvalid := (Valid.ofNet hsound).operateAll hsound operations
  have happend : (ofNet net).operateAll (operations ++ [.fire t]) =
      ((ofNet net).operateAll operations).operate (.fire t) := List.foldl_concat ..
  rw [happend]
  generalize (ofNet net).operateAll operations = live at heq hvalid ⊢
  subst heq
  refine ⟨?_, fun next firing hok => ?_, fun e herror => ?_⟩
  · rw [← canFire_iff hsound]
    constructor
    · rintro ⟨next, firing, hok⟩
      exact (fire_eq_ok.mp hok).1
    · exact fun hcan => ⟨_, _, fire_eq_ok.mpr ⟨hcan, rfl, rfl⟩⟩
  · obtain ⟨hcan, rfl, -⟩ := fire_eq_ok.mp hok
    exact hvalid.fired_spec hsound hcan
  · rw [operate, herror]
    rfl

/-- A funnel takes its parts through two arcs, and then it is full. -/
def funnel : NetDescription where
  places := [⟨"P1", "parts", .int, "3", []⟩, ⟨"P2", "full", .bool, "0", []⟩]
  transitions := [{ id := "T1", name := "fill" }, { id := "T2", name := "empty", delay := "1" }]
  arcs := [⟨"A1", "P1", "T1", .input, "2", []⟩, ⟨"A2", "P1", "T1", .input, "2", []⟩,
    ⟨"A3", "P2", "T1", .output, "1", []⟩, ⟨"A4", "P2", "T2", .input, "1", []⟩]

def funnelNet : Net where
  places := ⟨[⟨"P1", "parts", .int, 3⟩, ⟨"P2", "full", .bool, 0⟩]⟩
  transitions := ⟨[⟨"T1", "fill", {}, 0, .zero⟩, ⟨"T2", "empty", {}, 1000000000, .zero⟩]⟩
  arcs := ⟨[⟨"A1", ⟨0⟩, ⟨0⟩, .input, 2⟩, ⟨"A2", ⟨0⟩, ⟨0⟩, .input, 2⟩, ⟨"A3", ⟨1⟩, ⟨0⟩, .output, 1⟩,
    ⟨"A4", ⟨1⟩, ⟨1⟩, .input, 1⟩]⟩
  attachments := ⟨[{ inputs := [⟨0⟩, ⟨1⟩], outputs := [⟨2⟩] }, { inputs := [⟨3⟩] }]⟩
  placeKeys := ⟨[("P2", ⟨1⟩), ("P1", ⟨0⟩)]⟩
  transitionKeys := ⟨[("T2", ⟨1⟩), ("T1", ⟨0⟩)]⟩
  order := [⟨0⟩, ⟨1⟩]

theorem funnel_assembled : Net.assemble funnel = .ok funnelNet :=
  Net.assemble_eq_ok (by decide +kernel) (by decide +kernel)

/-- Both arcs find two of the three parts. The funnel is full once they have taken all of them, and
can not be filled again. -/
theorem funnel_fired : Net.assemble funnel = .ok funnelNet ∧
    (∃ next, Fired ((ofNet funnelNet).operateAll [.update ⟨0⟩ 0 ⟨[], []⟩]) next ⟨0⟩ ∧
      next.marking.mark ⟨0⟩ = 0 ∧ next.marking.mark ⟨1⟩ = 1) ∧
    (ofNet funnelNet).operateAll [.update ⟨0⟩ 0 ⟨[], []⟩, .fire ⟨0⟩, .fire ⟨0⟩] =
      (ofNet funnelNet).operateAll [.update ⟨0⟩ 0 ⟨[], []⟩, .fire ⟨0⟩] := by
  obtain ⟨hiff, hfired, -⟩ := fire_spec funnel_assembled [.update ⟨0⟩ 0 ⟨[], []⟩] ⟨0⟩
  obtain ⟨-, -, hrefused⟩ := fire_spec funnel_assembled [.update ⟨0⟩ 0 ⟨[], []⟩, .fire ⟨0⟩] ⟨0⟩
  obtain ⟨next, firing, hok⟩ := hiff.mpr (by decide +kernel)
  have hnext := hfired next firing hok
  refine ⟨funnel_assembled, ⟨next, hnext, ?_, ?_⟩, hrefused (.disabled "T1") (by decide +kernel)⟩
  · have hmark := hnext.mark_int ⟨0⟩ (by decide) (by decide)
    exact Int.ofNat_eq_zero.mp (hmark.trans (by decide +kernel))
  · exact (hnext.mark_bool ⟨1⟩ (by decide) (by decide)).trans (by decide +kernel)

end LiveNet

end AutomationNet
