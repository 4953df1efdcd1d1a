import AutomationNet.Net.Assembly
import AutomationNet.Proofs.Fallible
import Mathlib.Data.List.Forall2
import Mathlib.Data.List.Nodup
import Mathlib.Data.List.Perm.Basic

/-!
# Drafts

How an assembly goes on, element by element: what the draft of a net holds of the description so
far, and where the assembly ends early.

* `Draft.addPlace_eq_ok`, `Draft.addTransition_eq_ok`, `Draft.addArc_eq_ok` : all that adding an
  element does
* `Draft.Registered` : the identifiers in use are those of the elements, each once
* `Keys.Inverts`, `Draft.Keyed` : the keys lead from the identifiers to the elements
* `refsAt`, `Draft.Attached` : the arcs that name a transition, and that they are those attached to
  it
* `PlaceDescription.Becomes`, `TransitionDescription.Becomes`, `ArcDescription.Becomes` : an element
  and what it was read from
* `Draft.Holds` : the elements so far are those described so far, and all of the above
* `Net.FailsAt`, `Net.assemble_cases` : **an assembly takes in the whole description, or fails at
  one element of it**
-/

namespace AutomationNet

/-! ## One element more -/

namespace Draft

theorem register_eq_ok {draft draft' : Draft} {id : ElementId} :
    draft.register id = .ok draft' ↔
      id ∉ draft.ids ∧ draft' = { draft with ids := id :: draft.ids } := by
  unfold register
  split
  · rename_i h
    simp [h]
  · rename_i h
    simp [h, eq_comm]

theorem addPlace_eq_ok {draft draft' : Draft} {p : PlaceDescription} :
    draft.addPlace p = .ok draft' ↔ ∃ mark, readMark p = .ok mark ∧ p.id ∉ draft.ids ∧
      draft' = { draft with
        ids := p.id :: draft.ids
        places := (draft.places.push ⟨p.id, p.name, p.type, mark⟩).1
        placeKeys := draft.placeKeys.insert p.id ⟨draft.places.size⟩ } := by
  unfold addPlace
  simp only [bind_eq_ok, register_eq_ok, pure, Except.pure, Except.ok.injEq]
  constructor
  · rintro ⟨mark, hmark, _, ⟨hid, rfl⟩, rfl⟩
    exact ⟨mark, hmark, hid, rfl⟩
  · rintro ⟨mark, hmark, hid, rfl⟩
    exact ⟨mark, hmark, _, ⟨hid, rfl⟩, rfl⟩

theorem addTransition_eq_ok {inputs : List String} {draft draft' : Draft}
    {t : TransitionDescription} :
    draft.addTransition inputs t = .ok draft' ↔ ∃ delay priority guard,
      readDelay t = .ok delay ∧ readPriority t = .ok priority ∧
      Guard.compile inputs t.guardText? = .ok guard ∧ t.id ∉ draft.ids ∧
      draft' = { draft with
        ids := t.id :: draft.ids
        transitions := (draft.transitions.push ⟨t.id, t.name, guard, delay, priority⟩).1
        attachments := (draft.attachments.push {}).1
        transitionKeys := draft.transitionKeys.insert t.id ⟨draft.transitions.size⟩ } := by
  unfold addTransition
  simp only [bind_eq_ok, mapError_eq_ok, register_eq_ok, pure, Except.pure, Except.ok.injEq]
  constructor
  · rintro ⟨delay, hdelay, priority, hpriority, guard, hguard, _, ⟨hid, rfl⟩, rfl⟩
    exact ⟨delay, priority, guard, hdelay, hpriority, hguard, hid, rfl⟩
  · rintro ⟨delay, priority, guard, hdelay, hpriority, hguard, hid, rfl⟩
    exact ⟨delay, hdelay, priority, hpriority, guard, hguard, _, ⟨hid, rfl⟩, rfl⟩

theorem addArc_eq_ok {draft draft' : Draft} {a : ArcDescription} :
    draft.addArc a = .ok draft' ↔ ∃ weight place transition,
      readWeight a = .ok weight ∧ draft.placeKeys.get? a.place = some place ∧
      draft.transitionKeys.get? a.transition = some transition ∧
      a.id ∉ draft.ids ∧
      draft' = { draft with
        ids := a.id :: draft.ids
        arcs := (draft.arcs.push ⟨a.id, place, transition, a.kind, weight⟩).1
        attachments := draft.attachments.modify transition (·.attach ⟨draft.arcs.size⟩ a.kind) } := by
  unfold addArc
  simp only [bind_eq_ok, elim_eq_ok, register_eq_ok, pure, Except.pure, Except.ok.injEq]
  constructor
  · rintro ⟨weight, hweight, place, hplace, transition, htransition, _, ⟨hid, rfl⟩, rfl⟩
    exact ⟨weight, place, transition, hweight, hplace, htransition, hid, rfl⟩
  · rintro ⟨weight, place, transition, hweight, hplace, htransition, hid, rfl⟩
    exact ⟨weight, hweight, place, hplace, transition, htransition, _, ⟨hid, rfl⟩, rfl⟩

end Draft

/-! ## Tables -/

theorem Table.get?_eq_some {κ α : Type} {t : Table κ α} {r : Ref κ} (h : r.index < t.size) :
    t.get? r = some t.toList[r.index] :=
  List.getElem?_eq_getElem h

theorem Table.get?_eq_none {κ α : Type} {t : Table κ α} {r : Ref κ} (h : ¬ r.index < t.size) :
    t.get? r = none :=
  List.getElem?_eq_none (Nat.le_of_not_lt h)

theorem Table.ext_get? {κ α : Type} {t u : Table κ α} (h : ∀ r, t.get? r = u.get? r) : t = u :=
  Table.ext (List.ext_getElem? fun i => h ⟨i⟩)

theorem Table.getElem?_enumerate {κ α : Type} (t : Table κ α) (i : Nat) :
    t.enumerate[i]? = t.toList[i]?.map fun a => (⟨i⟩, a) := by
  have hlength : t.enumerate.length = t.toList.length := by simp [enumerate, refs, size]
  by_cases hi : i < t.toList.length
  · rw [List.getElem?_eq_getElem (hlength ▸ hi), List.getElem?_eq_getElem hi]
    simp [enumerate, refs]
  · rw [List.getElem?_eq_none (by omega), List.getElem?_eq_none (by omega)]
    rfl

theorem Table.mem_enumerate {κ α : Type} {t : Table κ α} {r : Ref κ} {a : α} :
    (r, a) ∈ t.enumerate ↔ t.get? r = some a := by
  simp only [List.mem_iff_getElem?, getElem?_enumerate, Option.map_eq_some_iff, get?]
  constructor
  · rintro ⟨i, _, h, heq⟩
    cases heq
    exact h
  · exact fun h => ⟨r.index, a, h, rfl⟩

theorem Table.enumerate_push {κ α : Type} (t : Table κ α) (a : α) :
    (t.push a).1.enumerate = t.enumerate ++ [(⟨t.size⟩, a)] := by
  simp [enumerate, refs, push, size, List.range_succ, List.zip_append]

theorem Table.map_snd_enumerate {κ α : Type} (t : Table κ α) :
    t.enumerate.map Prod.snd = t.toList :=
  List.map_snd_zip (by simp [refs, size])

theorem Table.getD_push {κ α : Type} (t : Table κ α) (a : α) (s : Ref κ) :
    ((t.push a).1.get? s).getD a = (t.get? s).getD a := by
  rw [get?_push]
  split
  · rename_i hs
    have hnone : t.get? s = none := get?_eq_none (hs ▸ Nat.lt_irrefl _)
    rw [hnone]
    rfl
  · rfl

theorem Table.refs_nodup {κ α : Type} (t : Table κ α) : t.refs.Nodup :=
  List.nodup_range.map fun _ _ h => congrArg Ref.index h

theorem Table.refs_sorted {κ α : Type} (t : Table κ α) :
    t.refs.Pairwise fun r s => r.index < s.index := by
  rw [Table.refs, List.pairwise_map]
  exact List.pairwise_lt_range

theorem Table.mem_refs {κ α : Type} {t : Table κ α} {r : Ref κ} :
    r ∈ t.refs ↔ r.index < t.size := by
  simp only [Table.refs, List.mem_map, List.mem_range]
  constructor
  · rintro ⟨i, hi, rfl⟩
    exact hi
  · exact fun h => ⟨r.index, h, rfl⟩

/-! ## Identifiers -/

def idsOf (places : Table Place Place) (transitions : Table Transition Transition)
    (arcs : Table Arc Arc) : List ElementId :=
  places.toList.map (·.id) ++ transitions.toList.map (·.id) ++ arcs.toList.map (·.id)

namespace Draft

variable {draft draft' : Draft}

/-- The identifiers in use are those of the elements, each once. -/
structure Registered (draft : Draft) : Prop where
  perm : draft.ids.Perm (idsOf draft.places draft.transitions draft.arcs)
  nodup : draft.ids.Nodup

theorem Registered.addPlace (h : draft.Registered) {p : PlaceDescription}
    (hp : draft.addPlace p = .ok draft') : draft'.Registered := by
  obtain ⟨mark, -, hid, rfl⟩ := addPlace_eq_ok.mp hp
  refine ⟨?_, List.nodup_cons.mpr ⟨hid, h.nodup⟩⟩
  refine (h.perm.cons p.id).trans ?_
  simp only [idsOf, Table.push, List.map_append, List.map_singleton, List.append_assoc,
    List.singleton_append]
  exact List.perm_middle.symm

theorem Registered.addTransition (h : draft.Registered) {inputs : List String}
    {t : TransitionDescription} (ht : draft.addTransition inputs t = .ok draft') :
    draft'.Registered := by
  obtain ⟨_, _, _, -, -, -, hid, rfl⟩ := addTransition_eq_ok.mp ht
  refine ⟨?_, List.nodup_cons.mpr ⟨hid, h.nodup⟩⟩
  refine (h.perm.cons t.id).trans ?_
  simp only [idsOf, Table.push, List.map_append, List.map_singleton]
  rw [← List.append_assoc, List.append_assoc _ [t.id]]
  exact List.perm_middle.symm

theorem Registered.addArc (h : draft.Registered) {a : ArcDescription}
    (ha : draft.addArc a = .ok draft') : draft'.Registered := by
  obtain ⟨_, _, _, -, -, -, hid, rfl⟩ := addArc_eq_ok.mp ha
  refine ⟨?_, List.nodup_cons.mpr ⟨hid, h.nodup⟩⟩
  refine (h.perm.cons a.id).trans ?_
  simp only [idsOf, Table.push, List.map_append, List.map_singleton]
  rw [← List.append_assoc]
  exact (List.perm_append_singleton _ _).symm

end Draft

/-! ## Keys -/

/-- The keys lead from the identifier of every element to its position, and nowhere else. -/
def Keys.Inverts {κ α : Type} (keys : Keys κ) (t : Table κ α) (key : α → ElementId) : Prop :=
  ∀ id r, keys.get? id = some r ↔ ∃ a, t.get? r = some a ∧ key a = id

theorem Keys.Inverts.push {κ α : Type} {keys : Keys κ} {t : Table κ α} {key : α → ElementId}
    (h : keys.Inverts t key) {a : α} {id : ElementId} (hid : key a = id)
    (hfresh : id ∉ t.toList.map key) : (keys.insert id ⟨t.size⟩).Inverts (t.push a).1 key := by
  subst hid
  intro id r
  have hnone : t.get? ⟨t.size⟩ = none := Table.get?_eq_none (Nat.lt_irrefl _)
  rw [Keys.get?_insert, Table.get?_push]
  by_cases hid : id = key a
  · subst hid
    rw [if_pos rfl]
    constructor
    · intro hr
      cases hr
      exact ⟨a, if_pos rfl, rfl⟩
    · rintro ⟨b, hb, hkey⟩
      split at hb
      · rename_i hr
        rw [hr]
        rfl
      · exact absurd (List.mem_map.mpr ⟨b, List.mem_of_getElem? hb, hkey⟩) hfresh
  · rw [if_neg hid, h id r]
    constructor
    · rintro ⟨b, hb, hkey⟩
      refine ⟨b, ?_, hkey⟩
      rw [if_neg, hb]
      rintro rfl
      exact Option.some_ne_none b (hb.symm.trans hnone)
    · rintro ⟨b, hb, rfl⟩
      split at hb
      · cases hb
        exact absurd rfl hid
      · exact ⟨b, hb, rfl⟩

namespace Draft

structure Keyed (draft : Draft) : Prop where
  places : draft.placeKeys.Inverts draft.places (·.id)
  transitions : draft.transitionKeys.Inverts draft.transitions (·.id)

variable {draft draft' : Draft}

theorem Keyed.empty : Keyed {} :=
  ⟨fun _ _ => by simp [Table.get?, Table.empty], fun _ _ => by simp [Table.get?, Table.empty]⟩

theorem Keyed.addPlace (h : draft.Keyed) (hregistered : draft.Registered) {p : PlaceDescription}
    (hp : draft.addPlace p = .ok draft') : draft'.Keyed := by
  obtain ⟨mark, -, hid, rfl⟩ := addPlace_eq_ok.mp hp
  have hfresh : p.id ∉ draft.places.toList.map (·.id) := fun hmem =>
    hid (hregistered.perm.mem_iff.mpr (List.mem_append_left _ (List.mem_append_left _ hmem)))
  exact ⟨h.places.push rfl hfresh, h.transitions⟩

theorem Keyed.addTransition (h : draft.Keyed) (hregistered : draft.Registered)
    {inputs : List String} {t : TransitionDescription}
    (ht : draft.addTransition inputs t = .ok draft') : draft'.Keyed := by
  obtain ⟨delay, priority, guard, -, -, -, hid, rfl⟩ := addTransition_eq_ok.mp ht
  have hfresh : t.id ∉ draft.transitions.toList.map (·.id) := fun hmem =>
    hid (hregistered.perm.mem_iff.mpr (List.mem_append_left _ (List.mem_append_right _ hmem)))
  exact ⟨h.places, h.transitions.push rfl hfresh⟩

theorem Keyed.addArc (h : draft.Keyed) {a : ArcDescription}
    (ha : draft.addArc a = .ok draft') : draft'.Keyed := by
  obtain ⟨_, _, _, -, -, -, -, rfl⟩ := addArc_eq_ok.mp ha
  exact ⟨h.places, h.transitions⟩

end Draft

/-! ## Attachments -/

/-- The positions of the arcs of one kind at a transition, in order. -/
def refsAt (arcs : Table Arc Arc) (t : Ref Transition) (kind : ArcKind) : List (Ref Arc) :=
  (arcs.enumerate.filter fun entry => entry.2.transition = t ∧ entry.2.kind = kind).map Prod.fst

theorem refsAt_push (arcs : Table Arc Arc) (arc : Arc) (t : Ref Transition) (kind : ArcKind) :
    refsAt (arcs.push arc).1 t kind =
      refsAt arcs t kind ++ if arc.transition = t ∧ arc.kind = kind then [⟨arcs.size⟩] else [] := by
  rw [refsAt, Table.enumerate_push, List.filter_append, List.map_append, ← refsAt]
  by_cases h : arc.transition = t ∧ arc.kind = kind
  · simp [h]
  · simp [h]

theorem filterMap_refsAt (arcs : Table Arc Arc) (t : Ref Transition) (kind : ArcKind) :
    (refsAt arcs t kind).filterMap arcs.get? =
      arcs.toList.filter fun arc => arc.transition = t ∧ arc.kind = kind := by
  have hget : ∀ entry ∈ arcs.enumerate.filter fun entry =>
      entry.2.transition = t ∧ entry.2.kind = kind, (arcs.get? ∘ Prod.fst) entry = some entry.2 :=
    fun entry hentry => Table.mem_enumerate.mp (List.mem_filter.mp hentry).1
  rw [refsAt, List.filterMap_map, List.filterMap_congr hget, List.filterMap_eq_map',
    ← arcs.map_snd_enumerate, List.filter_map]
  rfl

namespace Draft

variable {draft draft' : Draft}

/-- Every transition has the arcs attached that name it, each to the list of its kind. -/
structure Attached (draft : Draft) : Prop where
  size_eq : draft.attachments.size = draft.transitions.size
  ofKind_eq : ∀ t kind,
    ((draft.attachments.get? t).getD {}).ofKind kind = refsAt draft.arcs t kind

theorem Attached.empty : Attached {} :=
  ⟨rfl, fun _ kind => Attachments.ofKind_empty kind⟩

theorem Attached.addPlace (h : draft.Attached) {p : PlaceDescription}
    (hp : draft.addPlace p = .ok draft') : draft'.Attached := by
  obtain ⟨_, -, -, rfl⟩ := addPlace_eq_ok.mp hp
  exact ⟨h.size_eq, h.ofKind_eq⟩

theorem Attached.addTransition (h : draft.Attached) {inputs : List String}
    {t : TransitionDescription} (ht : draft.addTransition inputs t = .ok draft') :
    draft'.Attached := by
  obtain ⟨_, _, _, -, -, -, -, rfl⟩ := addTransition_eq_ok.mp ht
  refine ⟨?_, fun r kind => ?_⟩
  · have := h.size_eq
    simp only [Table.size, Table.push, List.length_append, List.length_singleton] at this ⊢
    omega
  · rw [Table.getD_push]
    exact h.ofKind_eq r kind

theorem Attached.addArc (h : draft.Attached) (hkeyed : draft.Keyed) {a : ArcDescription}
    (ha : draft.addArc a = .ok draft') : draft'.Attached := by
  obtain ⟨weight, place, transition, -, -, htransition, -, rfl⟩ := addArc_eq_ok.mp ha
  refine ⟨(Table.size_modify _ _ _).trans h.size_eq, fun t kind => ?_⟩
  obtain ⟨found, hfound⟩ : ∃ found, draft.attachments.get? transition = some found := by
    obtain ⟨_, hget, -⟩ := (hkeyed.transitions _ _).mp htransition
    have hlt := (List.getElem?_eq_some_iff.mp hget).1
    exact ⟨_, Table.get?_eq_some (h.size_eq ▸ hlt)⟩
  rw [refsAt_push, Table.get?_modify, ← h.ofKind_eq t kind]
  by_cases ht : transition = t
  · subst ht
    simp [hfound]
  · simp [ht]

end Draft

/-! ## Elements and their descriptions -/

structure PlaceDescription.Becomes (p : PlaceDescription) (place : Place) : Prop where
  id_eq : place.id = p.id
  name_eq : place.name = p.name
  type_eq : place.type = p.type
  mark_eq : readMark p = .ok place.initialMark

structure TransitionDescription.Becomes (inputs : List String) (t : TransitionDescription)
    (transition : Transition) : Prop where
  id_eq : transition.id = t.id
  name_eq : transition.name = t.name
  delay_eq : readDelay t = .ok transition.delay
  priority_eq : readPriority t = .ok transition.priority
  guard_eq : Guard.compile inputs t.guardText? = .ok transition.guard

/-- The references of an arc lead to the elements that its description names. -/
structure ArcDescription.Becomes (places : Table Place Place)
    (transitions : Table Transition Transition) (a : ArcDescription) (arc : Arc) : Prop where
  id_eq : arc.id = a.id
  kind_eq : arc.kind = a.kind
  weight_eq : readWeight a = .ok arc.weight
  place_eq : ∃ place, places.get? arc.place = some place ∧ place.id = a.place
  transition_eq : ∃ transition, transitions.get? arc.transition = some transition ∧
    transition.id = a.transition

def describedIds (ps : List PlaceDescription) (ts : List TransitionDescription)
    (as : List ArcDescription) : List ElementId :=
  ps.map (·.id) ++ ts.map (·.id) ++ as.map (·.id)

def NetDescription.ids (d : NetDescription) : List ElementId :=
  describedIds d.places d.transitions d.arcs

namespace NetDescription

variable {d : NetDescription}

theorem ids_of_places {done rest : List PlaceDescription} {p : PlaceDescription}
    (h : d.places = done ++ p :: rest) :
    d.ids = describedIds done [] [] ++ p.id :: describedIds rest d.transitions d.arcs := by
  simp [ids, describedIds, h]

theorem ids_of_transitions {done rest : List TransitionDescription} {t : TransitionDescription}
    (h : d.transitions = done ++ t :: rest) :
    d.ids = describedIds d.places done [] ++ t.id :: describedIds [] rest d.arcs := by
  simp [ids, describedIds, h]

theorem ids_of_arcs {done rest : List ArcDescription} {a : ArcDescription}
    (h : d.arcs = done ++ a :: rest) :
    d.ids = describedIds d.places d.transitions done ++ a.id :: describedIds [] [] rest := by
  simp [ids, describedIds, h]

end NetDescription

theorem forall₂_snoc {α β : Type} {R : α → β → Prop} {l : List α} {m : List β}
    (h : List.Forall₂ R l m) {a : α} {b : β} (hab : R a b) :
    List.Forall₂ R (l ++ [a]) (m ++ [b]) :=
  List.rel_append h (.cons hab .nil)

theorem map_eq_of_forall₂ {α β γ : Type} {R : α → β → Prop} {f : α → γ} {g : β → γ}
    (hR : ∀ a b, R a b → g b = f a) {l : List α} {m : List β} (h : List.Forall₂ R l m) :
    m.map g = l.map f := by
  have hmaps : List.Forall₂ Eq (l.map f) (m.map g) :=
    List.rel_map (fun a b hab => (hR a b hab).symm) h
  rw [List.forall₂_eq_eq_eq] at hmaps
  exact hmaps.symm

/-! ## The draft of a description -/

namespace Draft

/-- The elements so far are those described so far. -/
structure Holds (draft : Draft) (inputs : List String) (ps : List PlaceDescription)
    (ts : List TransitionDescription) (as : List ArcDescription) : Prop where
  places : List.Forall₂ PlaceDescription.Becomes ps draft.places.toList
  transitions : List.Forall₂ (TransitionDescription.Becomes inputs) ts draft.transitions.toList
  arcs : List.Forall₂ (ArcDescription.Becomes draft.places draft.transitions) as draft.arcs.toList
  registered : draft.Registered
  keyed : draft.Keyed
  attached : draft.Attached

variable {draft draft' : Draft} {inputs : List String} {ps : List PlaceDescription}
  {ts : List TransitionDescription} {as : List ArcDescription}

theorem Holds.empty (inputs : List String) : Holds {} inputs [] [] [] :=
  ⟨.nil, .nil, .nil, ⟨.refl _, List.nodup_nil⟩, .empty, .empty⟩

theorem Holds.addPlace (h : draft.Holds inputs ps [] []) {p : PlaceDescription}
    (hp : draft.addPlace p = .ok draft') : draft'.Holds inputs (ps ++ [p]) [] [] := by
  have hregistered := h.registered.addPlace hp
  have hkeyed := h.keyed.addPlace h.registered hp
  have hattached := h.attached.addPlace hp
  obtain ⟨mark, hmark, -, rfl⟩ := addPlace_eq_ok.mp hp
  have harcs : draft.arcs.toList = [] := List.forall₂_nil_left_iff.mp h.arcs
  exact ⟨forall₂_snoc h.places ⟨rfl, rfl, rfl, hmark⟩, h.transitions,
    List.forall₂_nil_left_iff.mpr harcs, hregistered, hkeyed, hattached⟩

theorem Holds.addTransition (h : draft.Holds inputs ps ts []) {t : TransitionDescription}
    (ht : draft.addTransition inputs t = .ok draft') : draft'.Holds inputs ps (ts ++ [t]) [] := by
  have hregistered := h.registered.addTransition ht
  have hkeyed := h.keyed.addTransition h.registered ht
  have hattached := h.attached.addTransition ht
  obtain ⟨delay, priority, guard, hdelay, hpriority, hguard, -, rfl⟩ := addTransition_eq_ok.mp ht
  have harcs : draft.arcs.toList = [] := List.forall₂_nil_left_iff.mp h.arcs
  exact ⟨h.places, forall₂_snoc h.transitions ⟨rfl, rfl, hdelay, hpriority, hguard⟩,
    List.forall₂_nil_left_iff.mpr harcs, hregistered, hkeyed, hattached⟩

theorem Holds.addArc (h : draft.Holds inputs ps ts as) {a : ArcDescription}
    (ha : draft.addArc a = .ok draft') : draft'.Holds inputs ps ts (as ++ [a]) := by
  have hregistered := h.registered.addArc ha
  have hkeyed := h.keyed.addArc ha
  have hattached := h.attached.addArc h.keyed ha
  obtain ⟨weight, r, s, hweight, hr, hs, -, rfl⟩ := addArc_eq_ok.mp ha
  have hbecomes : a.Becomes draft.places draft.transitions ⟨a.id, r, s, a.kind, weight⟩ :=
    ⟨rfl, rfl, hweight, (h.keyed.places _ _).mp hr, (h.keyed.transitions _ _).mp hs⟩
  exact ⟨h.places, h.transitions, forall₂_snoc h.arcs hbecomes, hregistered, hkeyed, hattached⟩

/-- The identifiers in use are those of the description so far, each once. -/
theorem Holds.ids (h : draft.Holds inputs ps ts as) :
    draft.ids.Perm (describedIds ps ts as) ∧ (describedIds ps ts as).Nodup := by
  have hids : idsOf draft.places draft.transitions draft.arcs = describedIds ps ts as := by
    rw [idsOf, map_eq_of_forall₂ (fun _ _ hp => hp.id_eq) h.places,
      map_eq_of_forall₂ (fun _ _ ht => ht.id_eq) h.transitions,
      map_eq_of_forall₂ (fun _ _ ha => ha.id_eq) h.arcs, describedIds]
  have hperm := hids ▸ h.registered.perm
  exact ⟨hperm, hperm.nodup_iff.mp h.registered.nodup⟩

def toNet (draft : Draft) (d : NetDescription) : Net where
  places := draft.places
  transitions := draft.transitions
  arcs := draft.arcs
  attachments := draft.attachments
  placeKeys := draft.placeKeys
  transitionKeys := draft.transitionKeys
  order := priorityOrder draft.transitions
  inputs := d.inputs
  simulation := d.simulation

end Draft

/-! ## The course of an assembly -/

namespace Net

/-- An error, the element that it comes from, and the draft of all that is described before. -/
inductive FailsAt (d : NetDescription) : AssemblyError → Prop where
  | input {e} : checkInputs [] d.inputNames = .error e → FailsAt d e
  | place {e done p rest draft} : d.places = done ++ p :: rest →
      Draft.Holds draft d.inputNames done [] [] → draft.addPlace p = .error e → FailsAt d e
  | transition {e done t rest draft} : d.transitions = done ++ t :: rest →
      Draft.Holds draft d.inputNames d.places done [] →
      draft.addTransition d.inputNames t = .error e → FailsAt d e
  | arc {e done a rest draft} : d.arcs = done ++ a :: rest →
      Draft.Holds draft d.inputNames d.places d.transitions done →
      draft.addArc a = .error e → FailsAt d e

/-- **An assembly takes in the whole description, or fails at one element of it.** -/
theorem assemble_cases (d : NetDescription) :
    (∃ draft : Draft, checkInputs [] d.inputNames = .ok () ∧
      draft.Holds d.inputNames d.places d.transitions d.arcs ∧
      assemble d = .ok (draft.toNet d)) ∨
    ∃ e, FailsAt d e ∧ assemble d = .error e := by
  cases hinputs : checkInputs [] d.inputNames with
  | error e => exact .inr ⟨e, .input hinputs, by simp only [assemble, hinputs, bind_error]⟩
  | ok =>
    rcases foldlM_cases (fun ps draft => Draft.Holds draft d.inputNames ps [] [])
        (fun _ _ _ _ h hp => h.addPlace hp) (Draft.Holds.empty d.inputNames) d.places with
      ⟨withPlaces, hplaces, h⟩ | ⟨e, hplaces, done, p, rest, draft, hsplit, h, herror⟩
    case inr =>
      refine .inr ⟨e, .place hsplit h herror, ?_⟩
      simp only [assemble, hinputs, hplaces, bind_ok, bind_error]
    rcases foldlM_cases (fun ts draft => Draft.Holds draft d.inputNames d.places ts [])
        (fun _ _ _ _ h ht => h.addTransition ht) h d.transitions with
      ⟨withTransitions, htransitions, h⟩ | ⟨e, htransitions, done, t, rest, draft, hsplit, h, herror⟩
    case inr =>
      refine .inr ⟨e, .transition hsplit h herror, ?_⟩
      simp only [assemble, hinputs, hplaces, htransitions, bind_ok, bind_error]
    rcases foldlM_cases (fun as draft => Draft.Holds draft d.inputNames d.places d.transitions as)
        (fun _ _ _ _ h ha => h.addArc ha) h d.arcs with
      ⟨draft, harcs, h⟩ | ⟨e, harcs, done, a, rest, draft, hsplit, h, herror⟩
    case inr =>
      refine .inr ⟨e, .arc hsplit h herror, ?_⟩
      simp only [assemble, hinputs, hplaces, htransitions, harcs, bind_ok, bind_error]
    refine .inl ⟨draft, rfl, h, ?_⟩
    simp only [assemble, hinputs, hplaces, htransitions, harcs, bind_ok]
    rfl

end Net

end AutomationNet
