import AutomationNet.Text.Numeral

/-!
# Tables

The elements of a net live in tables, and are known by their position there. A position belongs to
one kind of element, so a place cannot be looked up among the transitions.

* `Ref` : a position in the tables of one kind of element
* `Table` : a list that is looked up by position
* `Table.get?_set`, `Table.get?_push` : what a change does to every position
* `Table.display` : the table as text, each element after its position
-/

namespace AutomationNet

@[ext]
structure Ref (κ : Type) where
  index : Nat

instance {κ : Type} : DecidableEq (Ref κ) := fun r s =>
  decidable_of_iff (r.index = s.index) Ref.ext_iff.symm

/-- A kind of element, shown by a letter. -/
class ElementKind (κ : Type) where
  letter : Char

/-- A position as text, such as `p#3`. -/
def Ref.display [ElementKind κ] (r : Ref κ) : String :=
  String.ofList [ElementKind.letter κ, '#'] ++ Numeral.ofNat r.index

/-- Values of type `α`, one for each element of kind `κ`. -/
@[ext]
structure Table (κ α : Type) where
  toList : List α

instance {κ α : Type} [DecidableEq α] : DecidableEq (Table κ α) := fun t u =>
  decidable_of_iff (t.toList = u.toList) Table.ext_iff.symm

namespace Table

variable {κ α β : Type}

def empty : Table κ α := ⟨[]⟩

def size (t : Table κ α) : Nat := t.toList.length

def get? (t : Table κ α) (r : Ref κ) : Option α := t.toList[r.index]?

/-- Replaces the value of one element; an element that is not there is left out. -/
def set (t : Table κ α) (r : Ref κ) (a : α) : Table κ α := ⟨t.toList.set r.index a⟩

def modify (t : Table κ α) (r : Ref κ) (f : α → α) : Table κ α :=
  match t.get? r with
  | some a => t.set r (f a)
  | none => t

/-- Adds an element at the end and gives its position. -/
def push (t : Table κ α) (a : α) : Table κ α × Ref κ := (⟨t.toList ++ [a]⟩, ⟨t.size⟩)

def map (f : α → β) (t : Table κ α) : Table κ β := ⟨t.toList.map f⟩

def refs (t : Table κ α) : List (Ref κ) := (List.range t.size).map Ref.mk

/-- Every element with its position, in order. -/
def enumerate (t : Table κ α) : List (Ref κ × α) := t.refs.zip t.toList

def display [ElementKind κ] (value : α → String) (t : Table κ α) : String :=
  "\x7b" ++ ", ".intercalate (t.enumerate.map fun entry =>
    entry.1.display ++ ": " ++ value entry.2) ++ "\x7d"

@[simp] theorem size_set (t : Table κ α) (r : Ref κ) (a : α) : (t.set r a).size = t.size := by
  simp [set, size]

@[simp] theorem size_map (t : Table κ α) (f : α → β) : (t.map f).size = t.size := by
  simp [map, size]

theorem get?_set (t : Table κ α) (r s : Ref κ) (a : α) :
    (t.set r a).get? s = if r = s ∧ r.index < t.size then some a else t.get? s := by
  obtain ⟨i⟩ := r
  obtain ⟨j⟩ := s
  simp only [get?, set, size, List.getElem?_set, Ref.mk.injEq]
  by_cases h : i = j
  · subst h
    by_cases hi : i < t.toList.length
    · simp [hi]
    · simp [hi]
  · simp [h]

theorem get?_modify (t : Table κ α) (r s : Ref κ) (f : α → α) :
    (t.modify r f).get? s = if r = s then (t.get? s).map f else t.get? s := by
  unfold modify
  cases hr : t.get? r with
  | none =>
    by_cases h : r = s
    · subst h
      simp [hr]
    · simp [h]
  | some a =>
    have hlt : r.index < t.size := by
      simp only [get?] at hr
      exact (List.getElem?_eq_some_iff.mp hr).1
    simp only [get?_set, hlt, and_true]
    by_cases h : r = s
    · subst h
      simp [hr]
    · simp [h]

@[simp] theorem size_modify (t : Table κ α) (r : Ref κ) (f : α → α) :
    (t.modify r f).size = t.size := by
  unfold modify
  split <;> simp

theorem get?_push (t : Table κ α) (a : α) (s : Ref κ) :
    (t.push a).1.get? s = if s = (t.push a).2 then some a else t.get? s := by
  obtain ⟨j⟩ := s
  simp only [push, get?, size, Ref.mk.injEq, List.getElem?_append]
  by_cases h : j < t.toList.length
  · simp [h, Nat.ne_of_lt h]
  · by_cases hj : j = t.toList.length
    · simp [hj]
    · have hlt : t.toList.length < j := by omega
      simp [h, hj]
      omega

end Table

end AutomationNet
