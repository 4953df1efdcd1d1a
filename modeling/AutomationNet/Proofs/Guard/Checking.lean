import AutomationNet.Proofs.Net.Structure

/-!
# Faults of guards

Checking binds the nodes of an expression to declared inputs, from left to right, and stops at the
first node that cannot be bound. A call is one node: its arguments are no expressions of their own.

* `Syntax.nodes` : the nodes of an expression from left to right
* `Syntax.Sound` : a node that can be bound
* `Fault`, `FirstFault` : what is wrong with a node, and with the first faulty one of some nodes
* `Expr.erase` : a checked expression without its positions
* `Judged`, `resolve_judged` : an expression is bound, or its first fault is found
* `resolve_spec` : **checking accepts the expressions without a fault and names the first fault of
  all others**
-/

namespace AutomationNet.Guard

/-! ## Nodes and their faults -/

/-- The nodes of an expression from left to right. -/
def Syntax.nodes : Syntax → List Syntax
  | .bool value => [.bool value]
  | .number value => [.number value]
  | .string text => [.string text]
  | .ident name => [.ident name]
  | .call function arguments => [.call function arguments]
  | .not inner => .not inner :: inner.nodes
  | .and left right => left.nodes ++ .and left right :: right.nodes
  | .or left right => left.nodes ++ .or left right :: right.nodes
  | .compare op left right => left.nodes ++ .compare op left right :: right.nodes

section
variable (inputs : List String)

/-- A node that can be bound: an identifier is the name of an input, a call asks for an edge of one,
and a string stands in no place but such a call. -/
def Syntax.Sound : Syntax → Prop
  | .bool _ => True
  | .number _ => True
  | .string _ => False
  | .ident name => name ∈ inputs
  | .call function arguments =>
    (function = "rt" ∨ function = "ft") ∧ ∃ name ∈ inputs, arguments = [.string name]
  | .not _ => True
  | .and _ _ => True
  | .or _ _ => True
  | .compare _ _ _ => True

/-- What is wrong with a node. A call is judged by its function, then by the form of its arguments,
then by the input it names. -/
inductive Fault : Syntax → Error → Prop
  | string (text : String) : Fault (.string text) (.unexpectedString text)
  | ident {name : String} : name ∉ inputs → Fault (.ident name) (.undefinedInput name)
  | function {function : String} {arguments : List Syntax} : function ≠ "rt" → function ≠ "ft" →
      Fault (.call function arguments) (.notCallable function)
  | argument {function : String} {arguments : List Syntax} : function = "rt" ∨ function = "ft" →
      (∀ name, arguments ≠ [.string name]) →
      Fault (.call function arguments) (.edgeArgument function)
  | input {function name : String} : function = "rt" ∨ function = "ft" → name ∉ inputs →
      Fault (.call function [.string name]) (.invalidEdgeInput function name)

/-- The fault of the first node that has one. -/
inductive FirstFault : List Syntax → Error → Prop
  | here {node : Syntax} {rest : List Syntax} {e : Error} : Fault inputs node e →
      FirstFault (node :: rest) e
  | later {node : Syntax} {rest : List Syntax} {e : Error} : node.Sound inputs →
      FirstFault rest e → FirstFault (node :: rest) e

end

section
variable {inputs : List String}

theorem Fault.not_sound {node : Syntax} {e : Error} (h : Fault inputs node e) :
    ¬ node.Sound inputs := by
  cases h with
  | string text => exact id
  | ident hname => exact hname
  | function hrising hfalling => exact fun hsound => hsound.1.elim hrising hfalling
  | argument hfunction harguments =>
    rintro ⟨-, name, -, heq⟩
    exact harguments name heq
  | input hfunction hname =>
    rintro ⟨-, name', hname', heq⟩
    cases heq
    exact hname hname'

/-- A node has one fault at most. -/
theorem Fault.unique {node : Syntax} {e e' : Error} (h : Fault inputs node e)
    (h' : Fault inputs node e') : e = e' := by
  cases h <;> cases h' <;> simp_all

namespace FirstFault

variable {l l' : List Syntax} {e e' : Error}

theorem append (h : FirstFault inputs l e) (l' : List Syntax) : FirstFault inputs (l ++ l') e := by
  induction h with
  | here hfault => exact .here hfault
  | later hsound _ ih => exact .later hsound ih

theorem append_of_sound (hl : ∀ node ∈ l, node.Sound inputs) (h : FirstFault inputs l' e) :
    FirstFault inputs (l ++ l') e := by
  induction l with
  | nil => exact h
  | cons node l ih =>
    obtain ⟨hnode, hl⟩ := List.forall_mem_cons.mp hl
    exact .later hnode (ih hl)

theorem not_sound (h : FirstFault inputs l e) : ¬ ∀ node ∈ l, node.Sound inputs := by
  intro hsound
  induction h with
  | here hfault => exact hfault.not_sound (hsound _ List.mem_cons_self)
  | later _ _ ih => exact ih fun node hnode => hsound node (List.mem_cons_of_mem _ hnode)

/-- A node is never ungrammatical: that is for the parser to say. -/
theorem ne_ungrammatical {guard : String} {column : Nat} :
    ¬ FirstFault inputs l (.ungrammatical guard column) := by
  intro h
  induction l with
  | nil => cases h
  | cons node l ih =>
    cases h with
    | here hfault => cases hfault
    | later _ h => exact ih h

theorem unique (h : FirstFault inputs l e) (h' : FirstFault inputs l e') : e = e' := by
  induction h with
  | here hfault =>
    cases h' with
    | here hfault' => exact hfault.unique hfault'
    | later hsound _ => exact absurd hsound hfault.not_sound
  | later hsound _ ih =>
    cases h' with
    | here hfault => exact absurd hsound hfault.not_sound
    | later _ h' => exact ih h'

end FirstFault

/-! ## Checking -/

theorem ofFunction?_eq_none_iff {function : String} :
    EdgeKind.ofFunction? function = none ↔ function ≠ "rt" ∧ function ≠ "ft" := by
  unfold EdgeKind.ofFunction?
  split <;> simp_all

theorem ofFunction?_eq_some_iff {function : String} {kind : EdgeKind} :
    EdgeKind.ofFunction? function = some kind ↔ function = kind.function := by
  unfold EdgeKind.ofFunction?
  cases kind <;> split <;> simp_all [EdgeKind.function]

theorem EdgeKind.function_cases (kind : EdgeKind) :
    kind.function = "rt" ∨ kind.function = "ft" := by
  cases kind <;> decide

/-- The outcome of checking some nodes: an expression if they are all sound, or else their first
fault. -/
inductive Judged (inputs : List String) (nodes : List Syntax) : Except Error Expr → Prop
  | ok (expr : Expr) : (∀ node ∈ nodes, node.Sound inputs) → Judged inputs nodes (.ok expr)
  | error {e : Error} : FirstFault inputs nodes e → Judged inputs nodes (.error e)

theorem Judged.pair {left right : List Syntax} {x y : Except Error Expr} (node : Syntax)
    (hnode : node.Sound inputs) (join : Expr → Expr → Expr) (hx : Judged inputs left x)
    (hy : Judged inputs right y) :
    Judged inputs (left ++ node :: right) (do return join (← x) (← y)) := by
  cases hx with
  | error hfault => exact .error (hfault.append _)
  | ok l hleft =>
    cases hy with
    | error hfault => exact .error (.append_of_sound hleft (.later hnode hfault))
    | ok r hright =>
      refine .ok (join l r) fun n hn => ?_
      rcases List.mem_append.mp hn with hn | hn
      · exact hleft n hn
      · exact List.forall_mem_cons.mpr ⟨hnode, hright⟩ n hn

theorem resolveCall_judged (inputs : List String) (function : String) (arguments : List Syntax) :
    Judged inputs [.call function arguments] (resolveCall inputs function arguments) := by
  unfold resolveCall
  split
  · rename_i hnone
    obtain ⟨hrising, hfalling⟩ := ofFunction?_eq_none_iff.mp hnone
    exact .error (.here (.function hrising hfalling))
  · rename_i kind hkind
    rw [ofFunction?_eq_some_iff.mp hkind]
    split
    · rename_i name
      split
      · rename_i index hindex
        have hname : name ∈ inputs := List.isSome_idxOf?.mp (by rw [hindex]; rfl)
        exact .ok _ (List.forall_mem_singleton.mpr ⟨kind.function_cases, name, hname, rfl⟩)
      · rename_i hnone
        exact .error (.here (.input kind.function_cases (List.idxOf?_eq_none_iff.mp hnone)))
    · rename_i hform
      exact .error (.here (.argument kind.function_cases hform))

/-- Checking judges the nodes of an expression from left to right. -/
theorem resolve_judged (inputs : List String) (tree : Syntax) :
    Judged inputs tree.nodes (resolve inputs tree) := by
  fun_induction resolve inputs tree with
  | case1 value | case2 value => exact .ok _ (List.forall_mem_singleton.mpr trivial)
  | case3 text => exact .error (.here (.string text))
  | case4 name index hindex =>
    have hname : name ∈ inputs := List.isSome_idxOf?.mp (by rw [hindex]; rfl)
    exact .ok _ (List.forall_mem_singleton.mpr hname)
  | case5 name hnone => exact .error (.here (.ident (List.idxOf?_eq_none_iff.mp hnone)))
  | case6 function arguments => exact resolveCall_judged inputs function arguments
  | case7 inner ih =>
    generalize resolve inputs inner = result at ih ⊢
    cases ih with
    | ok expr hsound => exact .ok expr.not (List.forall_mem_cons.mpr ⟨trivial, hsound⟩)
    | error hfault => exact .error (.later trivial hfault)
  | case8 left right ihl ihr => exact .pair (.and left right) trivial .and ihl ihr
  | case9 left right ihl ihr => exact .pair (.or left right) trivial .or ihl ihr
  | case10 op left right ihl ihr =>
    exact .pair (.compare op left right) trivial (.compare op) ihl ihr

theorem resolve_eq_ok_iff {tree : Syntax} :
    (∃ expr, resolve inputs tree = .ok expr) ↔ ∀ node ∈ tree.nodes, node.Sound inputs := by
  have hjudged := resolve_judged inputs tree
  generalize resolve inputs tree = result at hjudged
  cases hjudged with
  | ok expr hsound => exact ⟨fun _ => hsound, fun _ => ⟨expr, rfl⟩⟩
  | error hfault => exact ⟨nofun, fun hsound => absurd hsound hfault.not_sound⟩

theorem resolve_eq_error_iff {tree : Syntax} {e : Error} :
    resolve inputs tree = .error e ↔ FirstFault inputs tree.nodes e := by
  have hjudged := resolve_judged inputs tree
  generalize resolve inputs tree = result at hjudged
  cases hjudged with
  | ok expr hsound => exact ⟨nofun, fun hfault => absurd hsound hfault.not_sound⟩
  | @error e' hfault =>
    constructor
    · rintro ⟨⟩
      exact hfault
    · intro hfault'
      rw [hfault.unique hfault']

/-! ## What checking keeps -/

/-- A checked expression without its positions. -/
def Expr.erase : Expr → Syntax
  | .bool value => .bool value
  | .number value => .number value
  | .input name _ => .ident name
  | .edge kind name _ => .call kind.function [.string name]
  | .not inner => .not inner.erase
  | .and left right => .and left.erase right.erase
  | .or left right => .or left.erase right.erase
  | .compare op left right => .compare op left.erase right.erase

variable {tree : Syntax} {expr : Expr}

/-- Checking adds the positions and changes nothing else. -/
theorem erase_resolve (h : resolve inputs tree = .ok expr) : expr.erase = tree := by
  fun_induction resolve inputs tree generalizing expr with
  | case1 value | case2 value =>
    cases h
    rfl
  | case3 text => cases h
  | case4 name index hindex =>
    cases h
    rfl
  | case5 name hnone => cases h
  | case6 function arguments =>
    obtain ⟨kind, name, index, hkind, rfl, -, rfl⟩ := resolveCall_eq_ok.mp h
    rw [Expr.erase, ← ofFunction?_eq_some_iff.mp hkind]
  | case7 inner ih =>
    obtain ⟨e, he, heq⟩ := bind_eq_ok.mp h
    cases heq
    rw [Expr.erase, ih he]
  | case8 left right ihl ihr | case9 left right ihl ihr | case10 op left right ihl ihr =>
    obtain ⟨l, hl, h⟩ := bind_eq_ok.mp h
    obtain ⟨r, hr, heq⟩ := bind_eq_ok.mp h
    cases heq
    rw [Expr.erase, ihl hl, ihr hr]

/-- A name is looked up from the first input on. -/
theorem idxOf?_of_mem_references (h : resolve inputs tree = .ok expr) {entry : String × Nat}
    (hentry : entry ∈ expr.references) : inputs.idxOf? entry.1 = some entry.2 := by
  fun_induction resolve inputs tree generalizing expr with
  | case1 value | case2 value =>
    cases h
    cases hentry
  | case3 text => cases h
  | case4 name index hindex =>
    cases h
    rwa [List.mem_singleton.mp hentry]
  | case5 name hnone => cases h
  | case6 function arguments =>
    obtain ⟨_, name, index, -, -, hindex, rfl⟩ := resolveCall_eq_ok.mp h
    rwa [List.mem_singleton.mp hentry]
  | case7 inner ih =>
    obtain ⟨e, he, heq⟩ := bind_eq_ok.mp h
    cases heq
    exact ih he hentry
  | case8 left right ihl ihr | case9 left right ihl ihr | case10 op left right ihl ihr =>
    obtain ⟨l, hl, h⟩ := bind_eq_ok.mp h
    obtain ⟨r, hr, heq⟩ := bind_eq_ok.mp h
    cases heq
    exact (List.mem_append.mp hentry).elim (ihl hl) (ihr hr)

theorem getElem?_ne_of_idxOf? {name : String} {index : Nat} (h : inputs.idxOf? name = some index)
    {i : Nat} (hi : i < index) : inputs[i]? ≠ some name := by
  obtain ⟨hlt, -, hbefore⟩ := List.idxOf?_eq_some_iff.mp h
  rw [List.getElem?_eq_getElem (Nat.lt_trans hi hlt)]
  exact fun heq => hbefore i hi (Option.some.inj heq)

end

/-- **Checking accepts the expressions whose nodes are all sound**, and of any other expression it
names the first fault from the left. An accepted expression is the one that was checked, and each of
its references is the first position of its name. -/
theorem resolve_spec (inputs : List String) (tree : Syntax) :
    ((∃ expr, resolve inputs tree = .ok expr) ↔ ∀ node ∈ tree.nodes, node.Sound inputs) ∧
    (∀ e, resolve inputs tree = .error e ↔ FirstFault inputs tree.nodes e) ∧
    ∀ expr, resolve inputs tree = .ok expr → expr.erase = tree ∧
      ∀ entry ∈ expr.references,
        inputs[entry.2]? = some entry.1 ∧ ∀ i < entry.2, inputs[i]? ≠ some entry.1 := by
  refine ⟨resolve_eq_ok_iff, fun e => resolve_eq_error_iff, fun expr h => ⟨erase_resolve h, ?_⟩⟩
  intro entry hentry
  have hindex := idxOf?_of_mem_references h hentry
  exact ⟨getElem?_of_idxOf? hindex, fun i hi => getElem?_ne_of_idxOf? hindex hi⟩

/- The call is the first faulty node: what its arguments name is not looked at, nor what comes after
it. -/
example : resolve ["level"] (.and (.not (.call "ft" [.string "door", .ident "level"]))
    (.string "open")) = .error (.edgeArgument "ft") := by rfl

end AutomationNet.Guard
