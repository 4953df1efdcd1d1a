import Mathlib.Data.List.Forall2

/-!
# Computations that may fail

* `bind_eq_ok` : a computation of two steps succeeds by both
* `foldlM_cases`, `mapM_eq_ok` : many steps, and a list that is read item by item
* `exists_of_forall₂` : what an element of such a list comes from
* `elim_eq_ok`, `mapError_eq_ok` : a choice that succeeds, and an error that is renamed
* `bind_eq_error`, `elim_eq_error`, `mapError_eq_error` : where an error comes from
* `eq_of_map_eq_ok` : a part of what a computation gives
-/

namespace AutomationNet

theorem bind_eq_ok {ε α β : Type} {x : Except ε α} {f : α → Except ε β} {b : β} :
    (x >>= f) = .ok b ↔ ∃ a, x = .ok a ∧ f a = .ok b := by
  cases x with
  | error e => simp [bind, Except.bind]
  | ok a => simp [bind, Except.bind]

theorem bind_ok {ε α β : Type} (a : α) (f : α → Except ε β) : (Except.ok a >>= f) = f a := rfl

theorem bind_error {ε α β : Type} (e : ε) (f : α → Except ε β) :
    (Except.error e >>= f) = .error e := rfl

/-- What every step keeps of the elements before it holds in the end, or where the fold fails. -/
theorem foldlM_cases {ε α β : Type} {f : β → α → Except ε β} (P : List α → β → Prop)
    (step : ∀ done b a b', P done b → f b a = .ok b' → P (done ++ [a]) b') {b : β} (hb : P [] b)
    (l : List α) :
    (∃ b', l.foldlM f b = .ok b' ∧ P l b') ∨
      ∃ e, l.foldlM f b = .error e ∧
        ∃ done a rest c, l = done ++ a :: rest ∧ P done c ∧ f c a = .error e := by
  suffices h : ∀ done b, P done b → (∃ b', l.foldlM f b = .ok b' ∧ P (done ++ l) b') ∨
      ∃ e, l.foldlM f b = .error e ∧
        ∃ mid a rest c, l = mid ++ a :: rest ∧ P (done ++ mid) c ∧ f c a = .error e from h [] b hb
  clear hb b
  induction l with
  | nil => exact fun done b hb => .inl ⟨b, rfl, by rwa [List.append_nil]⟩
  | cons a l ih =>
    intro done b hb
    cases hf : f b a with
    | error e =>
      refine .inr ⟨e, ?_, [], a, l, b, rfl, by rwa [List.append_nil], hf⟩
      rw [List.foldlM_cons, hf, bind_error]
    | ok c =>
      have hfold : (a :: l).foldlM f b = l.foldlM f c := by
        rw [List.foldlM_cons, hf, bind_ok]
      rw [hfold]
      rcases ih (done ++ [a]) c (step done b a c hb hf) with ⟨b', hok, hP⟩ | ⟨e, herror, hrest⟩
      · exact .inl ⟨b', hok, by rwa [List.append_assoc] at hP⟩
      · obtain ⟨mid, a', rest, c', rfl, hP, hfail⟩ := hrest
        rw [List.append_assoc] at hP
        exact .inr ⟨e, herror, a :: mid, a', rest, c', rfl, hP, hfail⟩

theorem elim_eq_ok {ε α : Type} {x : Option α} {e : ε} {a : α} :
    x.elim (.error e) (Except.ok (ε := ε)) = .ok a ↔ x = some a := by
  cases x <;> simp

theorem mapError_eq_ok {ε ε' α : Type} {x : Except ε α} {f : ε → ε'} {a : α} :
    x.mapError f = .ok a ↔ x = .ok a := by
  cases x <;> simp [Except.mapError]

theorem bind_eq_error {ε α β : Type} {x : Except ε α} {f : α → Except ε β} {e : ε}
    (h : (x >>= f) = .error e) : x = .error e ∨ ∃ a, x = .ok a ∧ f a = .error e := by
  cases x with
  | error e' =>
    cases h
    exact .inl rfl
  | ok a => exact .inr ⟨a, rfl, h⟩

theorem elim_eq_error {ε α : Type} {x : Option α} {e e' : ε}
    (h : x.elim (.error e) (Except.ok (ε := ε)) = .error e') : x = none ∧ e' = e := by
  cases x with
  | none =>
    cases h
    exact ⟨rfl, rfl⟩
  | some a => cases h

theorem mapError_eq_error {ε ε' α : Type} {x : Except ε α} {f : ε → ε'} {e : ε'}
    (h : x.mapError f = .error e) : ∃ e', x = .error e' ∧ e = f e' := by
  cases x with
  | error e' =>
    cases h
    exact ⟨e', rfl, rfl⟩
  | ok a => cases h

theorem eq_of_map_eq_ok {ε α β : Type} {x : Except ε α} {f : α → β} {a : α} {b : β} (h : x = .ok a)
    (hmap : x.map f = .ok b) : f a = b := by
  rw [h] at hmap
  exact Except.ok.inj hmap

theorem mapM_eq_ok {ε α β : Type} {f : α → Except ε β} {l : List α} {m : List β} :
    l.mapM f = .ok m ↔ List.Forall₂ (fun a b => f a = .ok b) l m := by
  induction l generalizing m with
  | nil =>
    rw [List.mapM_nil, List.forall₂_nil_left_iff]
    simp [pure, Except.pure, eq_comm]
  | cons a l ih =>
    rw [List.mapM_cons, List.forall₂_cons_left_iff]
    constructor
    · intro h
      obtain ⟨b, hb, h⟩ := bind_eq_ok.mp h
      obtain ⟨rest, hrest, h⟩ := bind_eq_ok.mp h
      cases h
      exact ⟨b, rest, hb, ih.mp hrest, rfl⟩
    · rintro ⟨b, rest, hb, hrest, rfl⟩
      rw [hb, bind_ok, ih.mpr hrest]
      rfl

theorem exists_of_forall₂ {α β : Type} {R : α → β → Prop} {l : List α} {m : List β}
    (h : List.Forall₂ R l m) {b : β} (hb : b ∈ m) : ∃ a ∈ l, R a b := by
  induction h with
  | nil => cases hb
  | cons hab _ ih =>
    rcases List.mem_cons.mp hb with rfl | hb
    · exact ⟨_, List.mem_cons_self, hab⟩
    · obtain ⟨a, ha, hR⟩ := ih hb
      exact ⟨a, List.mem_cons_of_mem _ ha, hR⟩

end AutomationNet
