import AutomationNet.Proofs.Net.Assembled
import AutomationNet.Proofs.Number.Value
import Mathlib.Data.List.Induction
import Mathlib.Data.List.Pairwise

/-!
# The order of priorities

Transitions are taken by descending priority. Sorting keeps the order of equal keys, but the keys tell
`-0` from `0`, so between these two it is the sign that decides and not the order of the description.

* `Descending`, `mergeSort_descending` : sorting orders by the keys, and by what already related
  the items where the keys are level
* `Net.Outranks` : a greater value, or the same value and an earlier description
* `Net.ZeroBefore` : a `0` next to a `-0`
* `Net.order_pairwise`, `Net.order_outranks_iff` : the order of an assembled net, and when it is that
  of the values
* `Net.order_spec` : **the order lists every transition once, by descending value and then as
  described, exactly if no `-0` is described before a `0`**
-/

namespace AutomationNet

/-! ## Sorting -/

section Sorting

variable {α : Type} {key : α → Int} {R : α → α → Prop}

/-- A greater key, or a level key and what `R` relates. -/
def Descending (key : α → Int) (R : α → α → Prop) (a b : α) : Prop :=
  key b < key a ∨ key a = key b ∧ R a b

/-- Sorting orders by the keys, and where they are level it keeps the order of the items. -/
theorem mergeSort_descending {items : List α} (h : items.Pairwise R) :
    (items.mergeSort fun a b => key b ≤ key a).Pairwise (Descending key R) := by
  induction items with
  | nil => simp
  | cons a items ih =>
    obtain ⟨hfirst, hitems⟩ := List.pairwise_cons.mp h
    obtain ⟨before, after, hsorted, hrest, hbefore, hafter⟩ := mergeSort_cons_eq key a items
    have hmem : ∀ b ∈ after, b ∈ items := fun b hb =>
      List.mem_mergeSort.mp (hrest ▸ List.mem_append_right before hb)
    obtain ⟨hearlier, hlater, hacross⟩ := List.pairwise_append.mp (hrest ▸ ih hitems)
    rw [hsorted]
    refine List.pairwise_append.mpr ⟨hearlier, List.pairwise_cons.mpr ⟨fun b hb => ?_, hlater⟩, ?_⟩
    · rcases Int.lt_or_eq_of_le (hafter b hb) with hlt | heq
      · exact .inl hlt
      · exact .inr ⟨heq.symm, hfirst b (hmem b hb)⟩
    · intro b hb c hc
      rcases List.mem_cons.mp hc with rfl | hc
      · exact .inl (hbefore b hb)
      · exact hacross b hb c hc

/-- Of two items in a list one comes first. -/
theorem rel_or_rel_of_pairwise {l : List α} (h : l.Pairwise R) {a b : α} (ha : a ∈ l) (hb : b ∈ l)
    (hne : a ≠ b) : R a b ∨ R b a := by
  have hsymm : Std.Symm fun a b => R a b ∨ R b a := ⟨fun _ _ => Or.symm⟩
  have heither : l.Pairwise fun a b => R a b ∨ R b a := h.imp .inl
  exact heither.forall ha hb hne

end Sorting

/-! ## Priorities -/

theorem readPriority_isFinite {t : TransitionDescription} {priority : Binary64}
    (h : readPriority t = .ok priority) : priority.isFinite = true := by
  unfold readPriority at h
  simp only at h
  split at h
  · cases h
    rfl
  · split at h
    · cases h
    · rename_i hread
      cases h
      exact (Option.filter_eq_some_iff.mp hread).2

namespace Net

variable {description : NetDescription} {net : Net}

/-- A priority of greater value, or one of the same value and an earlier description. -/
def Outranks (net : Net) (t u : Ref Transition) : Prop :=
  (net.transition u).priority.value < (net.transition t).priority.value ∨
    (net.transition t).priority.value = (net.transition u).priority.value ∧ t.index < u.index

instance {t u : Ref Transition} : Decidable (net.Outranks t u) :=
  inferInstanceAs (Decidable (_ ∨ _))

/-- Two zeros of which only the second has a sign. -/
def ZeroBefore (net : Net) (t u : Ref Transition) : Prop :=
  (net.transition t).priority = .zero ∧ (net.transition u).priority = Binary64.zero.neg

instance {t u : Ref Transition} : Decidable (net.ZeroBefore t u) :=
  inferInstanceAs (Decidable (_ ∧ _))

theorem ZeroBefore.value_eq {t u : Ref Transition} (h : net.ZeroBefore t u) :
    (net.transition t).priority.value = (net.transition u).priority.value := by
  rw [h.1, h.2]
  rfl

theorem ZeroBefore.asymm {t u : Ref Transition} (h : net.ZeroBefore t u) :
    ¬ net.ZeroBefore u t := by
  intro h'
  cases h.1.symm.trans h'.2

theorem descending_iff {t u : Ref Transition} :
    Descending (fun r => (net.transition r).priority.totalKey) (·.index < ·.index) t u ↔
      net.ZeroBefore t u ∨ net.Outranks t u ∧ ¬ net.ZeroBefore u t := by
  rw [Descending, Binary64.totalKey_lt_iff, Binary64.totalKey_eq_iff]
  constructor
  · rintro ((hlt | hzero) | ⟨heq, hindex⟩)
    · exact .inr ⟨.inl hlt, fun hzero => absurd hzero.value_eq (ne_of_lt hlt)⟩
    · exact .inl hzero.symm
    · refine .inr ⟨.inr ⟨congrArg _ heq, hindex⟩, fun hzero => ?_⟩
      cases hzero.1.symm.trans (heq.symm.trans hzero.2)
  · rintro (hzero | ⟨hlt | ⟨hvalue, hindex⟩, hzero⟩)
    · exact .inl (.inr hzero.symm)
    · exact .inl (.inl hlt)
    · rcases Binary64.value_eq_iff.mp hvalue with heq | hsigned | hsigned
      · exact .inr ⟨heq, hindex⟩
      · exact .inl (.inr hsigned.symm)
      · exact absurd hsigned.symm hzero

theorem order_pairwise (h : assemble description = .ok net) :
    net.order.Pairwise fun t u => net.ZeroBefore t u ∨ net.Outranks t u ∧ ¬ net.ZeroBefore u t := by
  obtain ⟨draft, -, rfl⟩ := exists_draft h
  refine (mergeSort_descending draft.transitions.refs_sorted).imp fun hkeys => ?_
  exact descending_iff.mp hkeys

/-- The order is that of the values unless a `-0` is described before a `0`. -/
theorem order_outranks_iff (h : assemble description = .ok net) :
    net.order.Pairwise net.Outranks ↔ ∀ t u : Ref Transition, t.index < u.index →
      u.index < net.transitions.size → ¬ net.ZeroBefore u t := by
  have hmem := fun t => (assemble_sound h).mem_order (t := t)
  have horder := order_pairwise h
  constructor
  · -- Of the two zeros the one without a sign comes first, and does not outrank the other.
    intro houtranks t u hindex hsize hzero
    have hne : u ≠ t := fun heq => absurd (congrArg Ref.index heq) (Nat.ne_of_gt hindex)
    have hfirst := rel_or_rel_of_pairwise (horder.and houtranks) ((hmem u).mpr hsize)
      ((hmem t).mpr (hindex.trans hsize)) hne
    rcases hfirst with ⟨-, hless | ⟨-, hless⟩⟩ | ⟨hcase | ⟨-, hcase⟩, -⟩
    · exact absurd hzero.value_eq (ne_of_gt hless)
    · exact absurd hless (Nat.not_lt.mpr hindex.le)
    · exact hzero.asymm hcase
    · exact hcase hzero
  · intro hnone
    refine horder.imp_of_mem fun ht hu hcase => ?_
    rcases hcase with hzero | ⟨houtranks, -⟩
    · rcases Nat.lt_trichotomy _ _ with hindex | hindex | hindex
      · exact .inr ⟨hzero.value_eq, hindex⟩
      · cases Ref.ext hindex
        exact absurd hzero hzero.asymm
      · exact absurd hzero (hnone _ _ hindex ((hmem _).mp ht))
    · exact houtranks

/-! ### Zeros of both signs -/

/-- Five priorities, of which two are the same number and two are zeros. -/
def ranked : NetDescription where
  transitions := [{ id := "T1", name := "fill", priority := some "1" },
    { id := "T2", name := "drain", priority := some " 2.5" },
    { id := "T3", name := "stir", priority := some "10e-1" }, { id := "T4", name := "rest" },
    { id := "T5", name := "idle", priority := some "-0" }]

def rankedNet : Net where
  transitions := ⟨[⟨"T1", "fill", {}, 0, .one⟩, ⟨"T2", "drain", {}, 0, .ofRatio 5 2⟩,
    ⟨"T3", "stir", {}, 0, .one⟩, ⟨"T4", "rest", {}, 0, .zero⟩,
    ⟨"T5", "idle", {}, 0, Binary64.zero.neg⟩]⟩
  attachments := ⟨[{}, {}, {}, {}, {}]⟩
  transitionKeys := ⟨[("T5", ⟨4⟩), ("T4", ⟨3⟩), ("T3", ⟨2⟩), ("T2", ⟨1⟩), ("T1", ⟨0⟩)]⟩
  order := [⟨1⟩, ⟨0⟩, ⟨2⟩, ⟨3⟩, ⟨4⟩]

theorem ranked_assembled : assemble ranked = .ok rankedNet :=
  assemble_eq_ok (by decide +kernel) (by decide +kernel)

/-- The same number twice, the first time with a sign. -/
def signedZero : NetDescription where
  transitions := [{ id := "T1", name := "first", priority := some "-0" },
    { id := "T2", name := "second", priority := some "0" }]

def signedZeroNet : Net where
  transitions := ⟨[⟨"T1", "first", {}, 0, Binary64.zero.neg⟩, ⟨"T2", "second", {}, 0, .zero⟩]⟩
  attachments := ⟨[{}, {}]⟩
  transitionKeys := ⟨[("T2", ⟨1⟩), ("T1", ⟨0⟩)]⟩
  order := [⟨1⟩, ⟨0⟩]

theorem signedZero_assembled : assemble signedZero = .ok signedZeroNet :=
  assemble_eq_ok (by decide +kernel) (by decide +kernel)

/-- Priorities of one value do not always keep the order of the description. -/
theorem signedZero_overtaken :
    ¬ ∀ (description : NetDescription) (net : Net), assemble description = .ok net →
      description.transitions.length < 2 ^ 32 →
        (∀ t, net.order.count t = if t.index < description.transitions.length then 1 else 0) ∧
        net.order.Pairwise net.Outranks := by
  intro h
  have houtranks := (h signedZero signedZeroNet signedZero_assembled (by decide)).2
  have hfirst := (List.pairwise_cons.mp houtranks).1 ⟨0⟩ (List.mem_singleton_self _)
  exact absurd hfirst (by decide)

/-! ### Result -/

/-- **The order of the priorities.** Every transition is listed once, greater numbers first, and
equal ones as described, except that a `0` always comes before a `-0`. -/
theorem order_spec (h : assemble description = .ok net) :
    List.Forall₂ (fun t transition => readPriority t = .ok transition.priority ∧
      transition.priority.isFinite = true) description.transitions net.transitions.toList ∧
    (∀ t, net.order.count t = if t.index < description.transitions.length then 1 else 0) ∧
    net.order.Pairwise (fun t u => net.ZeroBefore t u ∨ net.Outranks t u ∧ ¬ net.ZeroBefore u t) ∧
    (net.order.Pairwise net.Outranks ↔ ∀ t u : Ref Transition, t.index < u.index →
      u.index < description.transitions.length → ¬ net.ZeroBefore u t) := by
  have hsound := assemble_sound h
  have hpriorities : List.Forall₂ (fun t transition => readPriority t = .ok transition.priority ∧
      transition.priority.isFinite = true) description.transitions net.transitions.toList := by
    obtain ⟨draft, hdraft, rfl⟩ := exists_draft h
    exact hdraft.transitions.imp fun t transition ht =>
      ⟨ht.priority_eq, readPriority_isFinite ht.priority_eq⟩
  have hsize : description.transitions.length = net.transitions.size := hpriorities.length_eq
  rw [hsize]
  refine ⟨hpriorities, fun t => ?_, order_pairwise h, order_outranks_iff h⟩
  split
  · rename_i ht
    exact List.count_eq_one_of_mem hsound.order_nodup (hsound.mem_order.mpr ht)
  · rename_i ht
    exact List.count_eq_zero_of_not_mem fun hmem => ht (hsound.mem_order.mp hmem)

theorem ranked_order : rankedNet.order.Pairwise rankedNet.Outranks := by
  obtain ⟨-, -, -, houtranks⟩ := order_spec ranked_assembled
  have hnone : ∀ j < 5, ∀ i < j, ¬ rankedNet.ZeroBefore ⟨j⟩ ⟨i⟩ := by decide +kernel
  exact houtranks.mpr fun t u hindex hsize => hnone u.index hsize t.index hindex

end Net

end AutomationNet
