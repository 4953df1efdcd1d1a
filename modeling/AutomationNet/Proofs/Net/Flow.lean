import AutomationNet.Proofs.Net.Live
import Mathlib.Algebra.GroupWithZero.Nat

/-!
# The closed form of a firing

A firing moves its tokens arc by arc. What it leaves in a place does not depend on the arcs at other
places: a count loses what the input arcs ask of it, as far as it goes, and gains what the output
arcs give to it; a flag only asks whether there are such arcs.

* `Arc.atPlace` : those of some arcs that are at a place
* `Table.get?_foldl_modify` : changes arc by arc, seen from one place
* `Net.movers` : the arcs of a transition that move tokens
* `Net.flow` : how many tokens the arcs of one kind ask of a place or give to it
* `Net.mark_move_int`, `Net.mark_move_bool` : **the mark of a place after a firing**
-/

namespace AutomationNet

def Arc.atPlace (r : Ref Place) (arcs : List Arc) : List Arc := arcs.filter fun arc => arc.place = r

/-- A place only sees the changes of its own arcs. -/
theorem Table.get?_foldl_modify {α : Type} (change : Ref Place → Arc → α → α) (arcs : List Arc)
    (table : Table Place α) (r : Ref Place) :
    (arcs.foldl (fun table arc => table.modify arc.place (change arc.place arc)) table).get? r =
      (table.get? r).map fun a => (Arc.atPlace r arcs).foldl (fun a arc => change r arc a) a := by
  induction arcs generalizing table with
  | nil => simp [Arc.atPlace]
  | cons arc arcs ih =>
    rw [List.foldl_cons, ih, get?_modify]
    by_cases hr : arc.place = r
    · simp [hr, Arc.atPlace, Option.map_map, Function.comp_def]
    · simp [hr, Arc.atPlace]

namespace DataType

def consumeAll (type : DataType) (arcs : List Arc) (mark : Nat) : Nat :=
  arcs.foldl (fun mark arc => type.consume arc.weight mark) mark

def produceAll (type : DataType) (arcs : List Arc) (mark : Nat) : Nat :=
  arcs.foldl (fun mark arc => type.produce arc.weight mark) mark

theorem consumeAll_int (arcs : List Arc) (mark : Nat) :
    consumeAll .int arcs mark = mark - (arcs.map (·.weight)).sum := by
  unfold consumeAll
  induction arcs generalizing mark with
  | nil => simp
  | cons arc arcs ih =>
    rw [List.foldl_cons, ih, consume, List.map_cons, List.sum_cons, Nat.sub_sub]

theorem produceAll_int (arcs : List Arc) {mark : Nat} (hmark : mark ≤ Numeral.maxNat64) :
    produceAll .int arcs mark = min (mark + (arcs.map (·.weight)).sum) Numeral.maxNat64 := by
  unfold produceAll
  induction arcs generalizing mark with
  | nil => simp [hmark]
  | cons arc arcs ih =>
    rw [List.foldl_cons, ih (produce_le .int _ _), produce, List.map_cons, List.sum_cons]
    omega

theorem consumeAll_bool (arcs : List Arc) (mark : Nat) :
    consumeAll .bool arcs mark = if arcs = [] then mark else 0 := by
  unfold consumeAll
  induction arcs generalizing mark with
  | nil => rfl
  | cons arc arcs ih =>
    rw [List.foldl_cons, ih, consume, ite_self, if_neg (List.cons_ne_nil _ _)]

theorem produceAll_bool (arcs : List Arc) (mark : Nat) :
    produceAll .bool arcs mark = if arcs = [] then mark else 1 := by
  unfold produceAll
  induction arcs generalizing mark with
  | nil => rfl
  | cons arc arcs ih =>
    rw [List.foldl_cons, ih, produce, ite_self, if_neg (List.cons_ne_nil _ _)]

end DataType

namespace Net

variable {net : Net} {m : Marking} {t : Ref Transition} {r : Ref Place}

/-- The arcs of a transition that move tokens, in the order in which they do. -/
def movers (net : Net) (t : Ref Transition) : List Arc :=
  net.arcsOf t .input ++ net.arcsOf t .output

/-- How many tokens the arcs of one kind ask of a place or give to it. -/
def flow (net : Net) (t : Ref Transition) (kind : ArcKind) (r : Ref Place) : Nat :=
  ((Arc.atPlace r (net.arcsOf t kind)).map (·.weight)).sum

theorem get?_move (net : Net) (m : Marking) (t : Ref Transition) (r : Ref Place) :
    (net.move m t).get? r = (m.get? r).map fun mark =>
      (net.place r).type.produceAll (Arc.atPlace r (net.arcsOf t .output))
        ((net.place r).type.consumeAll (Arc.atPlace r (net.arcsOf t .input)) mark) := by
  have hinput := Table.get?_foldl_modify (fun r arc => (net.place r).type.consume arc.weight)
    (net.arcsOf t .input) m r
  have houtput := Table.get?_foldl_modify (fun r arc => (net.place r).type.produce arc.weight)
    (net.arcsOf t .output) ((net.arcsOf t .input).foldl net.consume m) r
  calc (net.move m t).get? r
      = (((net.arcsOf t .input).foldl net.consume m).get? r).map
          ((net.place r).type.produceAll (Arc.atPlace r (net.arcsOf t .output))) := houtput
    _ = ((m.get? r).map ((net.place r).type.consumeAll (Arc.atPlace r (net.arcsOf t .input)))).map
          ((net.place r).type.produceAll (Arc.atPlace r (net.arcsOf t .output))) :=
        congrArg _ hinput
    _ = _ := Option.map_map ..

/-- A firing leaves the places alone to which it has no such arc. -/
theorem get?_move_of_not_mem (h : ∀ arc ∈ net.movers t, arc.place ≠ r) :
    (net.move m t).get? r = m.get? r := by
  have hnone : ∀ kind, (∀ arc ∈ net.arcsOf t kind, arc ∈ net.movers t) →
      Arc.atPlace r (net.arcsOf t kind) = [] := fun kind hmem =>
    List.filter_eq_nil_iff.mpr fun arc harc => by simpa using h arc (hmem arc harc)
  rw [get?_move, hnone .input fun _ => List.mem_append_left _,
    hnone .output fun _ => List.mem_append_right _]
  simp [DataType.consumeAll, DataType.produceAll]

theorem mark_move_of_not_mem (h : ∀ arc ∈ net.movers t, arc.place ≠ r) :
    (net.move m t).mark r = m.mark r := by
  rw [Marking.mark, get?_move_of_not_mem h]
  rfl

/-- **A count loses what the input arcs ask of it, as far as it goes, and gains what the output arcs
give to it.** -/
theorem mark_move_int (hr : r.index < m.size) (htype : (net.place r).type = .int)
    (hmark : m.mark r ≤ Numeral.maxNat64) :
    (net.move m t).mark r =
      min (m.mark r - net.flow t .input r + net.flow t .output r) Numeral.maxNat64 := by
  rw [Marking.mark, get?_move, Table.get?_eq_some hr, htype]
  rw [Marking.mark, Table.get?_eq_some hr] at hmark ⊢
  rw [Option.map_some, Option.getD_some, DataType.consumeAll_int]
  exact DataType.produceAll_int _ (Nat.le_trans (Nat.sub_le _ _) hmark)

/-- **A flag is set if there is an output arc to it, and else cleared if there is an input arc from
it.** -/
theorem mark_move_bool (hr : r.index < m.size) (htype : (net.place r).type = .bool) :
    (net.move m t).mark r =
      if Arc.atPlace r (net.arcsOf t .output) = [] then
        if Arc.atPlace r (net.arcsOf t .input) = [] then m.mark r else 0
      else 1 := by
  rw [Marking.mark, get?_move, Marking.mark, Table.get?_eq_some hr, htype, Option.map_some,
    Option.getD_some, DataType.consumeAll_bool, DataType.produceAll_bool]
  rfl

end Net

end AutomationNet
