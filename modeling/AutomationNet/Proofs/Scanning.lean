import Mathlib.Data.List.DropRight

/-!
# Scanning characters

A scanner takes characters of one kind as long as there are any. What follows a text does not change
what is taken of it, unless it goes on with the same kind.

* `takeWhile_append`, `dropWhile_append` : all of a text is taken
* `takeWhile_append_stop`, `dropWhile_append_stop` : what is taken of a text, and what is left of it
-/

namespace AutomationNet

variable {α : Type} {p : α → Bool} {l rest : List α}

theorem takeWhile_append_stop (l : List α) (hrest : ∀ a ∈ rest.head?, p a = false) :
    (l ++ rest).takeWhile p = l.takeWhile p := by
  induction l with
  | nil =>
    cases rest with
    | nil => rfl
    | cons a rest => simp [hrest a rfl]
  | cons a l ih => rw [List.cons_append, List.takeWhile_cons, List.takeWhile_cons, ih]

theorem dropWhile_append_stop (l : List α) (hrest : ∀ a ∈ rest.head?, p a = false) :
    (l ++ rest).dropWhile p = l.dropWhile p ++ rest := by
  induction l with
  | nil =>
    cases rest with
    | nil => rfl
    | cons a rest => simp [hrest a rfl]
  | cons a l ih =>
    rw [List.cons_append, List.dropWhile_cons, List.dropWhile_cons, ih]
    split <;> rfl

theorem takeWhile_append (hl : ∀ a ∈ l, p a = true) (hrest : ∀ a ∈ rest.head?, p a = false) :
    (l ++ rest).takeWhile p = l := by
  rw [takeWhile_append_stop l hrest, List.takeWhile_eq_self_iff.mpr hl]

theorem dropWhile_append (hl : ∀ a ∈ l, p a = true) (hrest : ∀ a ∈ rest.head?, p a = false) :
    (l ++ rest).dropWhile p = rest := by
  rw [dropWhile_append_stop l hrest, List.dropWhile_eq_nil_iff.mpr hl, List.nil_append]

end AutomationNet
