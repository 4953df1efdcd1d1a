import AutomationNet.Proofs.Guard.Checking

/-!
# The names in a guard

A guard finds the values of its inputs by position, and the positions are those of the inputs that
were declared when it was compiled. What it says depends on its names alone: among other inputs, or
in another order, they lead to other positions, but the guard says the same of the same values.

* `Syntax.names`, `mentioned` : the inputs that a text names
* `map_fst_references` : a checked expression refers to the names of its text, in their order
* `Expr.rebind`, `rebind` : an expression or a guard over other inputs, at the positions of its names
* `resolve_rebind`, `compile_rebind` : checking over other inputs makes no other difference
* `Snapshot.Agree` : two snapshots that give some names the same values
* `Expr.eval_rebind`, `holds_rebind` : on them the positions make no difference
* `compile_mentioned` : **the meaning of a guard depends on the names it mentions alone**
-/

namespace AutomationNet.Guard

/-! ## Names of a text -/

/-- The text that an argument of a call quotes. -/
def Syntax.quoted? : Syntax → Option String
  | .string text => some text
  | _ => none

/-- The names of inputs in an expression from left to right: its identifiers, and what its calls
quote. -/
def Syntax.names : Syntax → List String
  | .bool _ => []
  | .number _ => []
  | .string _ => []
  | .ident name => [name]
  | .call _ arguments => arguments.filterMap Syntax.quoted?
  | .not inner => inner.names
  | .and left right => left.names ++ right.names
  | .or left right => left.names ++ right.names
  | .compare _ left right => left.names ++ right.names

/-- The names of inputs that the text of a guard mentions. -/
def mentioned (source : Option String) : List String :=
  match source.filter fun text => !Blank.isBlankText text with
  | none => []
  | some text => ((parse (Entity.decode text)).map Syntax.names).toOption.getD []

section
variable {inputs others : List String} {tree : Syntax} {expr : Expr}

theorem Expr.names_erase (expr : Expr) : expr.erase.names = expr.references.map Prod.fst := by
  induction expr with
  | bool _ | number _ | input _ _ | edge _ _ _ => rfl
  | not inner ih => exact ih
  | and left right ihl ihr | or left right ihl ihr | compare _ left right ihl ihr =>
    rw [Expr.erase, Syntax.names, Expr.references, List.map_append, ihl, ihr]

/-- A checked expression refers to the names of its text, in their order. -/
theorem map_fst_references (h : resolve inputs tree = .ok expr) :
    expr.references.map Prod.fst = tree.names := by
  rw [← Expr.names_erase, erase_resolve h]

/-- What a text names is declared, if it can be checked. -/
theorem mem_of_mem_names (h : resolve inputs tree = .ok expr) {name : String}
    (hname : name ∈ tree.names) : name ∈ inputs := by
  rw [← map_fst_references h] at hname
  obtain ⟨entry, hentry, rfl⟩ := List.mem_map.mp hname
  exact List.mem_of_getElem? (resolve_bound h entry hentry)

/-! ## Other inputs -/

/-- An expression with its names at their first positions among some inputs. -/
def Expr.rebind (inputs : List String) : Expr → Expr
  | .bool value => .bool value
  | .number value => .number value
  | .input name _ => .input name (inputs.idxOf name)
  | .edge kind name _ => .edge kind name (inputs.idxOf name)
  | .not inner => .not (inner.rebind inputs)
  | .and left right => .and (left.rebind inputs) (right.rebind inputs)
  | .or left right => .or (left.rebind inputs) (right.rebind inputs)
  | .compare op left right => .compare op (left.rebind inputs) (right.rebind inputs)

theorem idxOf?_of_mem {name : String} (h : name ∈ inputs) :
    inputs.idxOf? name = some (inputs.idxOf name) := by
  obtain ⟨index, hindex⟩ := Option.isSome_iff_exists.mp (List.isSome_idxOf?.mpr h)
  rw [List.idxOf_eq_getD_idxOf?, hindex, Option.getD_some]

/-- An expression that can be checked over some inputs can be checked over all others that have its
names, and becomes the same there but for the positions. -/
theorem resolve_rebind (h : resolve inputs tree = .ok expr)
    (hnames : ∀ name ∈ tree.names, name ∈ others) :
    resolve others tree = .ok (expr.rebind others) := by
  fun_induction resolve inputs tree generalizing expr with
  | case1 value | case2 value =>
    cases h
    rfl
  | case3 text => cases h
  | case4 name index hindex =>
    cases h
    rw [resolve, idxOf?_of_mem (hnames name (List.mem_singleton_self name))]
    rfl
  | case5 name hnone => cases h
  | case6 function arguments =>
    obtain ⟨kind, name, index, hkind, rfl, -, rfl⟩ := resolveCall_eq_ok.mp h
    have hname : name ∈ others := hnames name (List.mem_singleton_self name)
    exact resolveCall_eq_ok.mpr ⟨kind, name, _, hkind, rfl, idxOf?_of_mem hname, rfl⟩
  | case7 inner ih =>
    obtain ⟨e, he, heq⟩ := bind_eq_ok.mp h
    cases heq
    rw [resolve, ih he hnames]
    rfl
  | case8 left right ihl ihr | case9 left right ihl ihr | case10 op left right ihl ihr =>
    obtain ⟨l, hl, h⟩ := bind_eq_ok.mp h
    obtain ⟨r, hr, heq⟩ := bind_eq_ok.mp h
    cases heq
    rw [resolve, ihl hl fun name hname => hnames name (List.mem_append_left _ hname),
      ihr hr fun name hname => hnames name (List.mem_append_right _ hname)]
    rfl

end

/-! ## The same values -/

/-- Two snapshots, each over inputs of its own, give some names the same values now and before. -/
structure Snapshot.Agree (names inputs others : List String) (s s' : Snapshot) : Prop where
  value : ∀ name ∈ names, ∀ i j, inputs[i]? = some name → others[j]? = some name →
    s.value i = s'.value j
  before : ∀ name ∈ names, ∀ i j, inputs[i]? = some name → others[j]? = some name →
    s.before i = s'.before j

namespace Snapshot.Agree

variable {names inputs others : List String} {s s' : Snapshot}

theorem of_nodup (hinputs : inputs.Nodup) (hothers : others.Nodup)
    (h : ∀ name ∈ names, s.value (inputs.idxOf name) = s'.value (others.idxOf name) ∧
      s.before (inputs.idxOf name) = s'.before (others.idxOf name)) :
    Agree names inputs others s s' := by
  have hposition : ∀ {list : List String} {name : String} {i : Nat}, list.Nodup →
      list[i]? = some name → list.idxOf name = i := by
    intro list name i hnodup hi
    obtain ⟨hlt, rfl⟩ := List.getElem?_eq_some_iff.mp hi
    exact hnodup.idxOf_getElem i hlt
  refine ⟨fun name hname i j hi hj => ?_, fun name hname i j hi hj => ?_⟩
  · rw [← hposition hinputs hi, ← hposition hothers hj]
    exact (h name hname).1
  · rw [← hposition hinputs hi, ← hposition hothers hj]
    exact (h name hname).2

theorem mono (h : Agree names inputs others s s') {fewer : List String}
    (hfewer : ∀ name ∈ fewer, name ∈ names) : Agree fewer inputs others s s' :=
  ⟨fun name hname => h.value name (hfewer name hname),
    fun name hname => h.before name (hfewer name hname)⟩

theorem edge_eq (h : Agree names inputs others s s') {name : String} (hname : name ∈ names)
    {i j : Nat} (hi : inputs[i]? = some name) (hj : others[j]? = some name) (kind : EdgeKind) :
    s.edge kind i = s'.edge kind j := by
  have hvalue := h.value name hname i j hi hj
  have hbefore := h.before name hname i j hi hj
  cases kind with
  | rising => rw [edge, edge, rises, rises, hvalue, hbefore]
  | falling => rw [edge, edge, falls, falls, hvalue, hbefore]

end Snapshot.Agree

theorem getElem?_idxOf {inputs : List String} {name : String} (h : name ∈ inputs) :
    inputs[inputs.idxOf name]? = some name :=
  getElem?_of_idxOf? (idxOf?_of_mem h)

/-- An expression says the same of two snapshots that agree on its names. -/
theorem Expr.eval_rebind {inputs others : List String} {expr : Expr} {s s' : Snapshot}
    (hbound : expr.Bound inputs) (hnames : ∀ name ∈ expr.references.map Prod.fst, name ∈ others)
    (h : Snapshot.Agree (expr.references.map Prod.fst) inputs others s s') :
    (expr.rebind others).eval s' = expr.eval s := by
  induction expr with
  | bool value | number value => rfl
  | input name index =>
    have hindex : inputs[index]? = some name := hbound (name, index) (List.mem_singleton_self _)
    have hmem := List.mem_singleton_self name
    rw [rebind, eval, eval, h.value name hmem index _ hindex (getElem?_idxOf (hnames name hmem))]
  | edge kind name index =>
    have hindex : inputs[index]? = some name := hbound (name, index) (List.mem_singleton_self _)
    have hmem := List.mem_singleton_self name
    rw [rebind, eval, eval, h.edge_eq hmem hindex (getElem?_idxOf (hnames name hmem)) kind]
  | not inner ih => rw [rebind, eval, eval, ih hbound hnames h]
  | and left right ihl ihr | or left right ihl ihr | compare op left right ihl ihr =>
    rw [references, List.map_append] at hnames h
    have hleft : ∀ name ∈ left.references.map Prod.fst,
        name ∈ left.references.map Prod.fst ++ right.references.map Prod.fst :=
      fun _ => List.mem_append_left _
    have hright : ∀ name ∈ right.references.map Prod.fst,
        name ∈ left.references.map Prod.fst ++ right.references.map Prod.fst :=
      fun _ => List.mem_append_right _
    rw [rebind, eval, eval,
      ihl (fun entry hentry => hbound entry (List.mem_append_left _ hentry))
        (fun name hname => hnames name (hleft name hname)) (h.mono hleft),
      ihr (fun entry hentry => hbound entry (List.mem_append_right _ hentry))
        (fun name hname => hnames name (hright name hname)) (h.mono hright)]

/-! ## Guards -/

section
variable {inputs others : List String} {source : Option String} {guard : Guard}

theorem mentioned_of_filter_eq_none
    (h : (source.filter fun text => !Blank.isBlankText text) = none) : mentioned source = [] := by
  rw [mentioned, h]

theorem mentioned_of_parse {text : String} {tree : Syntax}
    (h : (source.filter fun text => !Blank.isBlankText text) = some text)
    (hparse : parse (Entity.decode text) = .ok tree) : mentioned source = tree.names := by
  rw [mentioned, h]
  simp only [hparse]
  rfl

/-- A guard over other inputs, at the positions of its names. -/
def rebind (inputs : List String) (guard : Guard) : Guard :=
  { guard with expr := guard.expr.map (Expr.rebind inputs) }

theorem mem_of_mem_mentioned (h : compile inputs source = .ok guard) {name : String}
    (hname : name ∈ mentioned source) : name ∈ inputs := by
  rcases compile_eq_ok.mp h with ⟨hblank, -⟩ | ⟨text, tree, expr, htext, hparse, hresolve, -⟩
  · rw [mentioned_of_filter_eq_none hblank] at hname
    exact absurd hname List.not_mem_nil
  · rw [mentioned_of_parse htext hparse] at hname
    exact mem_of_mem_names hresolve hname

theorem compile_rebind (h : compile inputs source = .ok guard)
    (hnames : ∀ name ∈ mentioned source, name ∈ others) :
    compile others source = .ok (guard.rebind others) := by
  rcases compile_eq_ok.mp h with ⟨hblank, rfl⟩ | ⟨text, tree, expr, htext, hparse, hresolve, rfl⟩
  · exact compile_eq_ok.mpr (.inl ⟨hblank, rfl⟩)
  · rw [mentioned_of_parse htext hparse] at hnames
    exact compile_eq_ok.mpr
      (.inr ⟨text, tree, _, htext, hparse, resolve_rebind hresolve hnames, rfl⟩)

theorem holds_rebind (h : compile inputs source = .ok guard)
    (hnames : ∀ name ∈ mentioned source, name ∈ others) {s s' : Snapshot}
    (hagree : Snapshot.Agree (mentioned source) inputs others s s') :
    (guard.rebind others).holds s' = guard.holds s := by
  rcases compile_eq_ok.mp h with ⟨-, rfl⟩ | ⟨text, tree, expr, htext, hparse, hresolve, rfl⟩
  · rfl
  · rw [mentioned_of_parse htext hparse, ← map_fst_references hresolve] at hnames hagree
    exact congrArg Value.truthy (Expr.eval_rebind (resolve_bound hresolve) hnames hagree)

/-- **The meaning of a guard depends on the names it mentions alone.** A text that compiles over some
inputs compiles over exactly those others that have all the names it mentions, and on values that
agree for these names both guards say the same. -/
theorem compile_mentioned (h : compile inputs source = .ok guard) :
    ((∃ other, compile others source = .ok other) ↔ ∀ name ∈ mentioned source, name ∈ others) ∧
    ∀ other, compile others source = .ok other → ∀ s s' : Snapshot,
      Snapshot.Agree (mentioned source) inputs others s s' → other.holds s' = guard.holds s := by
  refine ⟨⟨?_, fun hnames => ⟨_, compile_rebind h hnames⟩⟩, fun other hother s s' hagree => ?_⟩
  · rintro ⟨other, hother⟩ name hname
    exact mem_of_mem_mentioned hother hname
  · have hnames : ∀ name ∈ mentioned source, name ∈ others := fun _ => mem_of_mem_mentioned hother
    cases hother.symm.trans (compile_rebind h hnames)
    exact holds_rebind h hnames hagree

end

/-- An alarm that goes on while a level is high, and when a button is pressed. -/
def alarm : String := "level &gt;= 3 or rt('button')"

def alarmGuard : Guard :=
  ⟨some alarm, some (.or (.compare .ge (.input "level" 0) (.number (.ofNat 3)))
    (.edge .rising "button" 1))⟩

theorem alarm_compiled : compile ["level", "button"] (some alarm) = .ok alarmGuard := by
  decide +kernel

/-- With a spare input before them and in the other order, the button still sets the alarm off. It
takes both inputs. -/
theorem alarm_mentioned :
    (∃ other, compile ["spare", "button", "level"] (some alarm) = .ok other ∧
      other.holds ⟨[.nan, .one, .zero], [.one, .zero, .zero]⟩ = true) ∧
    ¬ ∃ other, compile ["spare", "button"] (some alarm) = .ok other := by
  have hnames : mentioned (some alarm) = ["level", "button"] := by decide +kernel
  obtain ⟨hmoved, hsame⟩ :=
    @compile_mentioned _ ["spare", "button", "level"] _ _ alarm_compiled
  obtain ⟨hfewer, -⟩ := @compile_mentioned _ ["spare", "button"] _ _ alarm_compiled
  rw [hnames] at hmoved hsame hfewer
  obtain ⟨other, hother⟩ := hmoved.mpr (by decide)
  have hagree : Snapshot.Agree ["level", "button"] ["level", "button"] ["spare", "button", "level"]
      ⟨[.zero, .one], [.zero, .zero]⟩ ⟨[.nan, .one, .zero], [.one, .zero, .zero]⟩ :=
    .of_nodup (by decide) (by decide) (by decide +kernel)
  refine ⟨⟨other, hother, (hsame other hother _ _ hagree).trans (by decide +kernel)⟩, fun h => ?_⟩
  exact absurd (hfewer.mp h) (by decide)

end AutomationNet.Guard
