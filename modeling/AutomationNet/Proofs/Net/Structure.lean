import AutomationNet.Net.Live
import AutomationNet.Proofs.Net.Assembled

/-!
# The structure of assembled nets

A net has the elements of its description, in the same order; its references, lists of arcs and
guards lead to the elements that the description names.

* `mem_refsAt`, `refsAt_sorted`, `Net.Sound.attachedRefs_perm` : no list of arcs lacks one or has one
  twice
* `Guard.Expr.references` : the inputs a guard refers to, by name and position
* `Net.Built`, `Net.assemble_built` : **the structure of the net of a description**
-/

namespace AutomationNet

/-! ## Lists of arcs -/

theorem refsAt_sublist (arcs : Table Arc Arc) (t : Ref Transition) (kind : ArcKind) :
    (refsAt arcs t kind).Sublist arcs.refs := by
  have hfst : arcs.enumerate.map Prod.fst = arcs.refs :=
    List.map_fst_zip (by simp [Table.refs, Table.size])
  rw [← hfst]
  exact List.filter_sublist.map Prod.fst

theorem refsAt_sorted (arcs : Table Arc Arc) (t : Ref Transition) (kind : ArcKind) :
    (refsAt arcs t kind).Pairwise fun r s => r.index < s.index :=
  arcs.refs_sorted.sublist (refsAt_sublist arcs t kind)

theorem mem_refsAt {arcs : Table Arc Arc} {t : Ref Transition} {kind : ArcKind} {r : Ref Arc} :
    r ∈ refsAt arcs t kind ↔
      ∃ arc, arcs.get? r = some arc ∧ arc.transition = t ∧ arc.kind = kind := by
  simp only [refsAt, List.mem_map, List.mem_filter, decide_eq_true_eq]
  constructor
  · rintro ⟨⟨_, arc⟩, ⟨hmem, hat⟩, rfl⟩
    exact ⟨arc, Table.mem_enumerate.mp hmem, hat⟩
  · rintro ⟨arc, hget, hat⟩
    exact ⟨(r, arc), ⟨Table.mem_enumerate.mpr hget, hat⟩, rfl⟩

def ArcKind.all : List ArcKind := [.input, .output, .test, .inhibitor]

theorem ArcKind.mem_all (kind : ArcKind) : kind ∈ all := by
  cases kind <;> decide

namespace Net

variable {net : Net}

/-- What stands in the lists of arcs of all transitions, one list after the other. -/
def attachedRefs (net : Net) : List (Ref Arc) :=
  net.transitions.refs.flatMap fun t => ArcKind.all.flatMap (net.arcRefs t)

theorem Sound.mem_arcRefs (h : net.Sound) {t : Ref Transition} {kind : ArcKind} {r : Ref Arc} :
    r ∈ net.arcRefs t kind ↔
      ∃ arc, net.arcs.get? r = some arc ∧ arc.transition = t ∧ arc.kind = kind := by
  rw [h.arcRefs_eq, mem_refsAt]

/-- An arc has one transition and one kind, so two lists share nothing. -/
theorem Sound.arcRefs_unique (h : net.Sound) {t t' : Ref Transition} {kind kind' : ArcKind}
    {r : Ref Arc} (hr : r ∈ net.arcRefs t kind) (hr' : r ∈ net.arcRefs t' kind') :
    t = t' ∧ kind = kind' := by
  obtain ⟨arc, hget, rfl, rfl⟩ := h.mem_arcRefs.mp hr
  obtain ⟨arc', hget', rfl, rfl⟩ := h.mem_arcRefs.mp hr'
  cases hget.symm.trans hget'
  exact ⟨rfl, rfl⟩

theorem Sound.nodup_attachedRefs (h : net.Sound) : net.attachedRefs.Nodup := by
  have hlist : ∀ t kind, (net.arcRefs t kind).Nodup := fun t kind => by
    rw [h.arcRefs_eq]
    exact (refsAt_sublist net.arcs t kind).nodup net.arcs.refs_nodup
  have hkinds : ∀ t, (ArcKind.all.flatMap (net.arcRefs t)).Nodup := fun t => by
    refine List.nodup_flatMap.mpr ⟨fun kind _ => hlist t kind, ?_⟩
    refine List.Pairwise.imp (fun hne r hr hr' => ?_) (by decide : ArcKind.all.Nodup)
    exact hne (h.arcRefs_unique hr hr').2
  refine List.nodup_flatMap.mpr ⟨fun t _ => hkinds t, ?_⟩
  refine List.Pairwise.imp (fun hne r hr hr' => ?_) net.transitions.refs_nodup
  obtain ⟨kind, -, hr⟩ := List.mem_flatMap.mp hr
  obtain ⟨kind', -, hr'⟩ := List.mem_flatMap.mp hr'
  exact hne (h.arcRefs_unique hr hr').1

/-- Every arc stands in exactly one of the lists, and there once. -/
theorem Sound.attachedRefs_perm (h : net.Sound) : net.attachedRefs.Perm net.arcs.refs := by
  refine (List.perm_ext_iff_of_nodup h.nodup_attachedRefs net.arcs.refs_nodup).mpr fun r => ?_
  rw [Table.mem_refs]
  constructor
  · intro hr
    obtain ⟨t, -, hr⟩ := List.mem_flatMap.mp hr
    obtain ⟨kind, -, hr⟩ := List.mem_flatMap.mp hr
    obtain ⟨arc, hget, -, -⟩ := h.mem_arcRefs.mp hr
    exact (List.getElem?_eq_some_iff.mp hget).1
  · intro hr
    have hget := Table.get?_eq_some hr
    have hlt := h.transition_lt _ (List.getElem_mem hr)
    exact List.mem_flatMap.mpr ⟨_, Table.mem_refs.mpr hlt, List.mem_flatMap.mpr
      ⟨_, ArcKind.mem_all _, h.mem_arcRefs.mpr ⟨_, hget, rfl, rfl⟩⟩⟩

end Net

/-! ## References of guards -/

namespace Guard

/-- The inputs that an expression refers to by value or by edge, with their positions. -/
def Expr.references : Expr → List (String × Nat)
  | .bool _ => []
  | .number _ => []
  | .input name index => [(name, index)]
  | .edge _ name index => [(name, index)]
  | .not inner => inner.references
  | .and left right => left.references ++ right.references
  | .or left right => left.references ++ right.references
  | .compare _ left right => left.references ++ right.references

/-- Every input is referred to by the position at which its name is declared. -/
def Expr.Bound (inputs : List String) (expr : Expr) : Prop :=
  ∀ entry ∈ expr.references, inputs[entry.2]? = some entry.1

theorem Expr.Bound.pair {inputs : List String} {left right : Expr} (hl : left.Bound inputs)
    (hr : right.Bound inputs) {entry : String × Nat}
    (h : entry ∈ left.references ++ right.references) : inputs[entry.2]? = some entry.1 :=
  (List.mem_append.mp h).elim (hl entry) (hr entry)

theorem getElem?_of_idxOf? {inputs : List String} {name : String} {index : Nat}
    (h : inputs.idxOf? name = some index) : inputs[index]? = some name := by
  obtain ⟨hlt, heq, -⟩ := List.idxOf?_eq_some_iff.mp h
  rw [List.getElem?_eq_getElem hlt, heq]

theorem resolveCall_eq_ok {inputs : List String} {function : String} {arguments : List Syntax}
    {expr : Expr} : resolveCall inputs function arguments = .ok expr ↔
      ∃ kind name index, EdgeKind.ofFunction? function = some kind ∧ arguments = [.string name] ∧
        inputs.idxOf? name = some index ∧ expr = .edge kind name index := by
  unfold resolveCall
  constructor
  · intro h
    split at h
    · cases h
    · rename_i kind hkind
      split at h
      · rename_i name
        split at h
        · rename_i index hindex
          cases h
          exact ⟨kind, name, index, hkind, rfl, hindex, rfl⟩
        · cases h
      · cases h
  · rintro ⟨kind, name, index, hkind, rfl, hindex, rfl⟩
    simp only [hkind, hindex]

theorem resolve_bound {inputs : List String} {tree : Syntax} {expr : Expr}
    (h : resolve inputs tree = .ok expr) : expr.Bound inputs := by
  -- along the recursion of the check: a name or a call is looked up, everything else is passed on
  fun_induction resolve inputs tree generalizing expr with
  | case1 value | case2 value =>
    cases h
    exact fun _ hentry => absurd hentry List.not_mem_nil
  | case3 text => cases h
  | case4 name index hindex =>
    cases h
    intro entry hentry
    rw [List.mem_singleton.mp hentry]
    exact getElem?_of_idxOf? hindex
  | case5 name hnone => cases h
  | case6 function arguments =>
    obtain ⟨_, name, index, -, -, hindex, rfl⟩ := resolveCall_eq_ok.mp h
    intro entry hentry
    rw [List.mem_singleton.mp hentry]
    exact getElem?_of_idxOf? hindex
  | case7 inner ih =>
    obtain ⟨e, he, heq⟩ := bind_eq_ok.mp h
    cases heq
    intro entry hentry
    exact ih he entry hentry
  | case8 left right ihl ihr | case9 left right ihl ihr | case10 op left right ihl ihr =>
    obtain ⟨l, hl, h⟩ := bind_eq_ok.mp h
    obtain ⟨r, hr, heq⟩ := bind_eq_ok.mp h
    cases heq
    intro entry hentry
    exact (ihl hl).pair (ihr hr) hentry

/-- A blank text makes the guard that always holds, any other one that is parsed and checked. -/
theorem compile_eq_ok {inputs : List String} {source : Option String} {guard : Guard} :
    compile inputs source = .ok guard ↔
      (source.filter fun text => !Blank.isBlankText text) = none ∧ guard = {} ∨
      ∃ text tree expr, (source.filter fun text => !Blank.isBlankText text) = some text ∧
        parse (Entity.decode text) = .ok tree ∧ resolve inputs tree = .ok expr ∧
        guard = { source := some text, expr := some expr } := by
  unfold compile
  split
  · rename_i hnone
    simp [hnone, eq_comm]
  · rename_i text hsome
    simp only [compileText, bind_eq_ok, mapError_eq_ok, pure, Except.pure, Except.ok.injEq, hsome,
      reduceCtorEq, false_and, false_or, Option.some.injEq]
    constructor
    · rintro ⟨tree, hparse, expr, hresolve, rfl⟩
      exact ⟨text, tree, expr, rfl, hparse, hresolve, rfl⟩
    · rintro ⟨_, tree, expr, rfl, hparse, hresolve, rfl⟩
      exact ⟨tree, hparse, expr, hresolve, rfl⟩

theorem compile_bound {inputs : List String} {source : Option String} {guard : Guard}
    (h : compile inputs source = .ok guard) {expr : Expr} (hexpr : guard.expr = some expr) :
    expr.Bound inputs := by
  rcases compile_eq_ok.mp h with ⟨-, rfl⟩ | ⟨_, _, _, -, -, hresolve, rfl⟩
  · cases hexpr
  · cases hexpr
    exact resolve_bound hresolve

end Guard

/-! ## Nets -/

namespace Net

/-- The elements of a net are those of a description, and all its positions are right. -/
structure Built (net : Net) (d : NetDescription) : Prop where
  inputs_eq : net.inputs = d.inputs
  places : List.Forall₂ PlaceDescription.Becomes d.places net.places.toList
  transitions : List.Forall₂ (TransitionDescription.Becomes d.inputNames) d.transitions
    net.transitions.toList
  arcs : List.Forall₂ (ArcDescription.Becomes net.places net.transitions) d.arcs net.arcs.toList
  attachments_size : net.attachments.size = net.transitions.size
  /-- Every arc stands once in the lists of arcs of all transitions. -/
  attachedRefs_perm : net.attachedRefs.Perm net.arcs.refs
  mem_arcRefs : ∀ t kind r, r ∈ net.arcRefs t kind ↔
    ∃ arc, net.arcs.get? r = some arc ∧ arc.transition = t ∧ arc.kind = kind
  arcRefs_sorted : ∀ t kind, (net.arcRefs t kind).Pairwise fun r s => r.index < s.index
  placeRef?_eq : ∀ id r, net.placeRef? id = some r ↔
    ∃ place, net.places.get? r = some place ∧ place.id = id
  transitionRef?_eq : ∀ id r, net.transitionRef? id = some r ↔
    ∃ transition, net.transitions.get? r = some transition ∧ transition.id = id
  order_perm : net.order.Perm net.transitions.refs
  weight_pos : ∀ arc ∈ net.arcs.toList, 1 ≤ arc.weight
  mark_eq : ∀ r place, net.places.get? r = some place →
    (LiveNet.ofNet net).marking.get? r = some place.initialMark
  guard_bound : ∀ t transition, net.transitions.get? t = some transition →
    ∀ expr, transition.guard.expr = some expr → expr.Bound net.inputNames

/-- **The structure of the net of a description.** -/
theorem assemble_built {description : NetDescription} {net : Net}
    (h : assemble description = .ok net) : net.Built description := by
  have hsound := assemble_sound h
  obtain ⟨draft, hdraft, rfl⟩ := exists_draft h
  refine ⟨rfl, hdraft.places, hdraft.transitions, hdraft.arcs, hdraft.attached.size_eq,
    hsound.attachedRefs_perm, fun _ _ _ => hsound.mem_arcRefs, fun t kind => ?_,
    hsound.placeKeys_inverts, hsound.transitionKeys_inverts, hsound.order_perm, hsound.weight_pos,
    fun r place hplace => ?_, fun t transition ht expr hexpr => ?_⟩
  · rw [hsound.arcRefs_eq]
    exact refsAt_sorted _ _ _
  · have hget : draft.places.toList[r.index]? = some place := hplace
    rw [LiveNet.ofNet, initialMarking, Table.get?, List.getElem?_map]
    exact congrArg (Option.map Place.initialMark) hget
  · obtain ⟨t', -, hbecomes⟩ := exists_of_forall₂ hdraft.transitions (List.mem_of_getElem? ht)
    exact Guard.compile_bound hbecomes.guard_eq hexpr

/-- A press takes two parts when it is free, and opens again after half a second. -/
def press : NetDescription where
  places := [⟨"P1", "parts", .int, " 2 ", []⟩, ⟨"P2", "closed", .bool, "0", []⟩]
  transitions := [{ id := "T1", name := "close", guard := some "ready and rt('go')" },
    { id := "T2", name := "open", delay := "0.5", priority := some "2" }]
  arcs := [⟨"A1", "P1", "T1", .input, "2", []⟩, ⟨"A2", "P2", "T1", .inhibitor, "1", []⟩,
    ⟨"A3", "P2", "T1", .output, "1", []⟩, ⟨"A4", "P2", "T2", .input, "1", []⟩,
    ⟨"A5", "P1", "T2", .test, "3", []⟩]
  inputs := [⟨"go", .bool, "", ""⟩, ⟨"ready", .bool, "", ""⟩]

def pressNet : Net where
  places := ⟨[⟨"P1", "parts", .int, 2⟩, ⟨"P2", "closed", .bool, 0⟩]⟩
  transitions := ⟨[⟨"T1", "close", ⟨some "ready and rt('go')",
      some (.and (.input "ready" 1) (.edge .rising "go" 0))⟩, 0, .zero⟩,
    ⟨"T2", "open", {}, 500000000, .ofNat 2⟩]⟩
  arcs := ⟨[⟨"A1", ⟨0⟩, ⟨0⟩, .input, 2⟩, ⟨"A2", ⟨1⟩, ⟨0⟩, .inhibitor, 1⟩,
    ⟨"A3", ⟨1⟩, ⟨0⟩, .output, 1⟩, ⟨"A4", ⟨1⟩, ⟨1⟩, .input, 1⟩, ⟨"A5", ⟨0⟩, ⟨1⟩, .test, 3⟩]⟩
  attachments := ⟨[{ inputs := [⟨0⟩], outputs := [⟨2⟩], inhibitors := [⟨1⟩] },
    { inputs := [⟨3⟩], tests := [⟨4⟩] }]⟩
  placeKeys := ⟨[("P2", ⟨1⟩), ("P1", ⟨0⟩)]⟩
  transitionKeys := ⟨[("T2", ⟨1⟩), ("T1", ⟨0⟩)]⟩
  order := [⟨1⟩, ⟨0⟩]
  inputs := [⟨"go", .bool, "", ""⟩, ⟨"ready", .bool, "", ""⟩]

theorem press_assembled : assemble press = .ok pressNet :=
  assemble_eq_ok (by decide +kernel) (by decide +kernel)

theorem press_built : assemble press = .ok pressNet ∧ pressNet.Built press :=
  ⟨press_assembled, assemble_built press_assembled⟩

end Net

end AutomationNet
