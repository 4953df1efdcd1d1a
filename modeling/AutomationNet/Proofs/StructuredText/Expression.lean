import AutomationNet.Proofs.Guard.Reading
import AutomationNet.Proofs.Net.Structure
import AutomationNet.StructuredText.Expression

/-!
# Guards in structured text can be read again

The text of a guard has parentheses only where its tree would be grouped otherwise. The grammar of
guards reads such a text, and finds the tree that was written.

* `Guard.Expr.Plain` : expressions without edges, over names that the grammar reads as inputs
* `Guard.Expr.rank` : the level of the grammar at which an expression stands
* `StructuredText.reads_wrap` : an operand is read where it stands
* `StructuredText.reads_expression` : **the text of an expression is read as that expression**
* `StructuredText.resolve_parse_expression` : **and is checked to be the same expression again**
-/

namespace AutomationNet

namespace Guard

/-! ## What can be read again -/

namespace Expr

def numbers : Expr → List Binary64
  | .bool _ => []
  | .number x => [x]
  | .input _ _ => []
  | .edge _ _ _ => []
  | .not inner => inner.numbers
  | .and left right => left.numbers ++ right.numbers
  | .or left right => left.numbers ++ right.numbers
  | .compare _ left right => left.numbers ++ right.numbers

def mapNumbers (f : Binary64 → Binary64) : Expr → Expr
  | .bool value => .bool value
  | .number x => .number (f x)
  | .input name index => .input name index
  | .edge kind name index => .edge kind name index
  | .not inner => .not (inner.mapNumbers f)
  | .and left right => .and (left.mapNumbers f) (right.mapNumbers f)
  | .or left right => .or (left.mapNumbers f) (right.mapNumbers f)
  | .compare op left right => .compare op (left.mapNumbers f) (right.mapNumbers f)

/-- An expression before its names were looked up. -/
def source : Expr → Syntax
  | .bool value => .bool value
  | .number x => .number x
  | .input name _ => .ident name
  | .edge kind name _ => .call kind.function [.string name]
  | .not inner => .not inner.source
  | .and left right => .and left.source right.source
  | .or left right => .or left.source right.source
  | .compare op left right => .compare op left.source right.source

/-- Two expressions that differ at most in numbers which compare as equal. -/
def same : Expr → Expr → Bool
  | .bool value, .bool value' => value == value'
  | .number x, .number y => x.eq y
  | .input name index, .input name' index' => name == name' && index == index'
  | .edge kind name index, .edge kind' name' index' =>
    kind = kind' && name == name' && index == index'
  | .not inner, .not inner' => inner.same inner'
  | .and left right, .and left' right' => left.same left' && right.same right'
  | .or left right, .or left' right' => left.same left' && right.same right'
  | .compare op left right, .compare op' left' right' =>
    op = op' && left.same left' && right.same right'
  | _, _ => false

/-- How tightly an expression holds together: `0` for a disjunction, `1` for a conjunction, `2` for a
comparison, and `3` for all that needs no parentheses anywhere. -/
def rank : Expr → Nat
  | .or _ _ => 0
  | .and _ _ => 1
  | .compare _ _ _ => 2
  | _ => 3

theorem rank_le (e : Expr) : e.rank ≤ 3 := by
  cases e <;> simp [rank]

/-- An expression without edges, over names that the grammar reads as such, and with the first
positions of these names. -/
structure Plain (inputs : List String) (e : Expr) : Prop where
  edges_eq : e.edges = []
  isName : ∀ entry ∈ e.references, IsName entry.1.toList
  index_eq : ∀ entry ∈ e.references, inputs.idxOf? entry.1 = some entry.2

end Expr

/-! ## Checking what was read -/

namespace Expr

variable {inputs : List String} {e left right : Expr} {f : Binary64 → Binary64}

theorem resolve_source (h : ∀ entry ∈ e.references, inputs.idxOf? entry.1 = some entry.2) :
    resolve inputs e.source = .ok e := by
  induction e with
  | bool value => rfl
  | number x => rfl
  | input name index =>
    have hindex : inputs.idxOf? name = some index := h (name, index) (List.mem_singleton_self _)
    simp only [source, resolve, hindex]
  | edge kind name index =>
    have hindex : inputs.idxOf? name = some index := h (name, index) (List.mem_singleton_self _)
    have hkind : EdgeKind.ofFunction? kind.function = some kind := by cases kind <;> rfl
    simp only [source, resolve, resolveCall, hkind, hindex]
  | not inner ih =>
    rw [source, resolve, ih h]
    rfl
  | and left right ihl ihr | or left right ihl ihr | compare op left right ihl ihr =>
    rw [source, resolve, ihl fun entry hmem => h entry (List.mem_append_left _ hmem),
      ihr fun entry hmem => h entry (List.mem_append_right _ hmem)]
    rfl

theorem references_mapNumbers (f : Binary64 → Binary64) (e : Expr) :
    (e.mapNumbers f).references = e.references := by
  induction e with
  | bool value => rfl
  | number x => rfl
  | input name index => rfl
  | edge kind name index => rfl
  | not inner ih => exact ih
  | and left right ihl ihr | or left right ihl ihr | compare op left right ihl ihr =>
    rw [mapNumbers, references, references, ihl, ihr]

theorem mapNumbers_eq_self (h : ∀ x ∈ e.numbers, f x = x) : e.mapNumbers f = e := by
  induction e with
  | bool value => rfl
  | number x => rw [mapNumbers, h x (List.mem_singleton_self x)]
  | input name index => rfl
  | edge kind name index => rfl
  | not inner ih => rw [mapNumbers, ih h]
  | and left right ihl ihr | or left right ihl ihr | compare op left right ihl ihr =>
    rw [mapNumbers, ihl fun x hmem => h x (List.mem_append_left _ hmem),
      ihr fun x hmem => h x (List.mem_append_right _ hmem)]

theorem same_mapNumbers (h : ∀ x ∈ e.numbers, (f x).eq x = true) :
    (e.mapNumbers f).same e = true := by
  induction e with
  | bool value => simp [mapNumbers, same]
  | number x => exact h x (List.mem_singleton_self x)
  | input name index => simp [mapNumbers, same]
  | edge kind name index => simp [mapNumbers, same]
  | not inner ih => exact ih h
  | and left right ihl ihr | or left right ihl ihr | compare op left right ihl ihr =>
    simp [mapNumbers, same, ihl fun x hmem => h x (List.mem_append_left _ hmem),
      ihr fun x hmem => h x (List.mem_append_right _ hmem)]

theorem Plain.inner (h : (Expr.not e).Plain inputs) : e.Plain inputs :=
  ⟨h.edges_eq, h.isName, h.index_eq⟩

theorem Plain.left_right (hedges : left.edges ++ right.edges = [])
    (hname : ∀ entry ∈ left.references ++ right.references, IsName entry.1.toList)
    (hindex : ∀ entry ∈ left.references ++ right.references,
      inputs.idxOf? entry.1 = some entry.2) : left.Plain inputs ∧ right.Plain inputs := by
  obtain ⟨hl, hr⟩ := List.append_eq_nil_iff.mp hedges
  exact ⟨⟨hl, fun entry hmem => hname entry (List.mem_append_left _ hmem),
      fun entry hmem => hindex entry (List.mem_append_left _ hmem)⟩,
    ⟨hr, fun entry hmem => hname entry (List.mem_append_right _ hmem),
      fun entry hmem => hindex entry (List.mem_append_right _ hmem)⟩⟩

end Expr

end Guard

/-! ## The text of an expression -/

namespace StructuredText

open Guard (Expr Reads Spells Syntax parse_of_reads)

theorem isJoin_eq (e : Expr) : isJoin e = decide (e.rank < 3) := by cases e <;> rfl

theorem isAndOr_eq (e : Expr) : isAndOr e = decide (e.rank < 2) := by cases e <;> rfl

theorem isOr_eq (e : Expr) : isOr e = decide (e.rank < 1) := by cases e <;> rfl

/-- An operand is read at the level at which it stands, with parentheses if it is looser. -/
theorem reads_wrap {text : String} {tree : Syntax} {rank : Nat} (level depth : Nat)
    (h : ∀ depth, text.toList.length ≤ depth →
      Reads (Guard.expression depth) text.toList tree rank)
    (hrank : rank ≤ 3) (hlevel : level ≤ 3)
    (hdepth : (wrap (decide (rank < level)) text).toList.length ≤ depth) :
    Reads (Guard.expression depth) (wrap (decide (rank < level)) text).toList tree level := by
  by_cases hneeded : rank < level
  · have htext : (wrap (decide (rank < level)) text).toList = '(' :: text.toList ++ [')'] := by
      simp [wrap, hneeded]
    rw [htext] at hdepth ⊢
    simp only [List.length_append, List.length_cons, List.length_nil] at hdepth
    obtain ⟨depth, rfl⟩ : ∃ fewer, depth = fewer + 1 := ⟨depth - 1, by omega⟩
    exact ((h depth (by omega)).of_le (Nat.zero_le rank) hrank).parenthesized hlevel
  · have htext : wrap (decide (rank < level)) text = text := by
      simp [wrap, hneeded]
    rw [htext] at hdepth ⊢
    exact (h depth hdepth).of_le (Nat.not_lt.mp hneeded) hrank

/-- **The text of an expression is read as that expression**, with the numbers that are read from the
texts of its numbers. -/
theorem reads_expression {inputs : List String} {f : Binary64 → Binary64} {e : Expr}
    (hplain : e.Plain inputs)
    (hnumbers : ∀ x ∈ e.numbers, Guard.number (number x).toList = .ok (.number (f x), []))
    (depth : Nat) (hdepth : (expression e).toList.length ≤ depth) :
    Reads (Guard.expression depth) (expression e).toList (e.mapNumbers f).source e.rank := by
  induction e generalizing depth with
  | bool value =>
    cases value with
    | true => exact .bool true (w := ['T', 'R', 'U', 'E']) (by decide) rfl
    | false => exact .bool false (w := ['F', 'A', 'L', 'S', 'E']) (by decide) rfl
  | number x => exact .number (hnumbers x (List.mem_singleton_self x))
  | input name index =>
    have hread : Reads (Guard.expression depth) name.toList
        (.ident (String.ofList name.toList)) 3 :=
      .ident (hplain.isName (name, index) (List.mem_singleton_self _))
    rwa [String.ofList_toList] at hread
  | edge kind name index => exact absurd hplain.edges_eq (List.cons_ne_nil _ _)
  | not inner ih =>
    have hinner := reads_wrap 3 depth (ih hplain.inner hnumbers)
      inner.rank_le (Nat.le_refl 3)
    rw [← isJoin_eq] at hinner
    simp only [expression, String.toList_append, List.length_append] at hdepth ⊢
    exact (hinner (by omega)).not_word (w := ['N', 'O', 'T']) (by decide) rfl
  | and left right ihl ihr =>
    obtain ⟨hl, hr⟩ := Expr.Plain.left_right hplain.edges_eq hplain.isName hplain.index_eq
    have hleft := reads_wrap 1 depth
      (ihl hl fun x hmem => hnumbers x (List.mem_append_left _ hmem)) left.rank_le (by decide)
    have hright := reads_wrap 2 depth
      (ihr hr fun x hmem => hnumbers x (List.mem_append_right _ hmem)) right.rank_le (by decide)
    rw [← isOr_eq] at hleft
    rw [← isAndOr_eq] at hright
    simp only [expression, String.toList_append, List.length_append] at hdepth ⊢
    rw [List.append_assoc]
    have hw : Spells Guard.andOperator 2 ['A', 'N', 'D'] () := .and_word (by decide) rfl
    exact .and hw (hleft (by omega)) (hright (by omega))
  | or left right ihl ihr =>
    obtain ⟨hl, hr⟩ := Expr.Plain.left_right hplain.edges_eq hplain.isName hplain.index_eq
    have hright := reads_wrap 1 depth
      (ihr hr fun x hmem => hnumbers x (List.mem_append_right _ hmem)) right.rank_le (by decide)
    rw [← isOr_eq] at hright
    simp only [expression, String.toList_append, List.length_append] at hdepth ⊢
    have hleft := ihl hl (fun x hmem => hnumbers x (List.mem_append_left _ hmem)) depth (by omega)
    rw [List.append_assoc]
    have hw : Spells Guard.orOperator 1 ['O', 'R'] () := .or_word (by decide) rfl
    exact .or hw (hleft.of_le (Nat.zero_le _) left.rank_le) (hright (by omega))
  | compare op left right ihl ihr =>
    obtain ⟨hl, hr⟩ := Expr.Plain.left_right hplain.edges_eq hplain.isName hplain.index_eq
    have hleft := reads_wrap 3 depth
      (ihl hl fun x hmem => hnumbers x (List.mem_append_left _ hmem)) left.rank_le (by decide)
    have hright := reads_wrap 3 depth
      (ihr hr fun x hmem => hnumbers x (List.mem_append_right _ hmem)) right.rank_le (by decide)
    rw [← isJoin_eq] at hleft hright
    simp only [expression, String.toList_append, List.length_append] at hdepth ⊢
    rw [List.append_assoc, List.append_assoc, List.append_assoc]
    have hop : (op.operator.toList, op) ∈ Guard.comparisonTable := by cases op <;> decide
    exact .compare (.comparison hop) (hleft (by omega)) (hright (by omega))

/-- The number that is read from the text of a number, if its text is that of a number at all. -/
def reread (x : Binary64) : Binary64 := (Guard.numberValue? (number x).toList).getD x

theorem reread_eq {x y : Binary64} (h : Guard.number (number x).toList = .ok (.number y, [])) :
    reread x = y := by
  rw [reread, Guard.numberValue?_eq_some.mpr h, Option.getD_some]

/-! ### Result -/

/-- **A guard survives its text.** An expression without edges, over names that the grammar reads as
such, is parsed and checked to be the same again from its text, if its numbers are read back. Where
they are only level, the sign of a zero may differ. -/
theorem resolve_parse_expression {inputs : List String} {e : Expr} (hplain : e.Plain inputs)
    (hnumbers : ∀ x ∈ e.numbers,
      ∃ y, Guard.number (number x).toList = .ok (.number y, []) ∧ y.eq x = true) :
    ∃ tree e', Guard.parse (expression e) = .ok tree ∧ Guard.resolve inputs tree = .ok e' ∧
      e'.same e = true ∧
      ((∀ x ∈ e.numbers, Guard.number (number x).toList = .ok (.number x, [])) → e' = e) := by
  have hreread : ∀ x ∈ e.numbers,
      Guard.number (number x).toList = .ok (.number (reread x), []) ∧ (reread x).eq x = true := by
    intro x hx
    obtain ⟨y, hy, heq⟩ := hnumbers x hx
    rw [reread_eq hy]
    exact ⟨hy, heq⟩
  refine ⟨(e.mapNumbers reread).source, e.mapNumbers reread, ?_, ?_, ?_, fun hsame => ?_⟩
  · refine parse_of_reads (.of_le ?_ (Nat.zero_le _) e.rank_le)
    exact reads_expression hplain (fun x hx => (hreread x hx).1) _ (Nat.le_refl _)
  · refine Expr.resolve_source ?_
    rw [Expr.references_mapNumbers]
    exact hplain.index_eq
  · exact Expr.same_mapNumbers fun x hx => (hreread x hx).2
  · exact Expr.mapNumbers_eq_self fun x hx => reread_eq (hsame x hx)

/-- A guard in which operands of every level stand on both sides, with and without parentheses. -/
def nestedGuard : Expr :=
  .or
    (.and
      (.and (.not (.compare .eq (.input "a" 0) (.number ⟨true, 0x4000000000000000⟩)))
        (.or (.input "b" 1) (.or (.input "a" 0) (.bool true))))
      (.and (.input "b" 1) (.not (.not (.input "a" 0)))))
    (.compare .ge (.compare .lt (.input "a" 0) (.number ⟨false, 0x3FF8000000000000⟩))
      (.compare .eq (.not (.input "b" 1)) (.input "a" 0)))

theorem nestedGuard_resolve_parse :
    expression nestedGuard =
        "NOT (a = -2) AND (b OR (a OR TRUE)) AND (b AND NOT NOT a) OR (a < 1.5) >= (NOT b = a)" ∧
      ∃ tree, Guard.parse (expression nestedGuard) = .ok tree ∧
        Guard.resolve ["a", "b"] tree = .ok nestedGuard := by
  have hplain : nestedGuard.Plain ["a", "b"] :=
    ⟨by decide, by decide, by decide⟩
  have hnumbers : ∀ x ∈ nestedGuard.numbers,
      Guard.number (number x).toList = .ok (.number x, []) ∧ x.eq x = true := by
    intro x hx
    rw [← Guard.numberValue?_eq_some]
    revert x
    decide +kernel
  obtain ⟨tree, e', hparse, hresolve, -, hsame⟩ :=
    resolve_parse_expression hplain fun x hx => ⟨x, hnumbers x hx⟩
  rw [hsame fun x hx => (hnumbers x hx).1] at hresolve
  exact ⟨by decide +kernel, tree, hparse, hresolve⟩

end StructuredText

end AutomationNet
