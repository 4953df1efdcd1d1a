import AutomationNet.Guard.Entity
import Mathlib.Data.List.Infix

/-!
# Entities and what they decode to

A text is decoded piece by piece: an entity becomes its character, and every other character stays.
A text may be escaped in many ways, since only the ampersand has to be written as an entity.

* `table` : the entities and their characters
* `Bare`, `induction` : a text piece by piece
* `Escapes` : the ways to write a text with entities
* `escapes_iff` : **decoding undoes every way of escaping a text**
* `Cut` : two parts of a text that no entity joins
* `exists_cut` : where a decoded text can be cut, the text can
-/

namespace AutomationNet.Entity

def table : List (List Char × Char) :=
  [(['&', 'g', 't', ';'], '>'), (['&', 'l', 't', ';'], '<'), (['&', 'a', 'm', 'p', ';'], '&'),
    (['&', 'q', 'u', 'o', 't', ';'], '"'), (['&', 'a', 'p', 'o', 's', ';'], '\'')]

/-- An ampersand begins every entity and stands nowhere else in it. -/
theorem table_form {entry : List Char × Char} (h : entry ∈ table) :
    ∃ name, entry.1 = '&' :: name ∧ '&' ∉ name ∧ 1 < name.length := by
  simp only [table, List.mem_cons, List.not_mem_nil, or_false] at h
  rcases h with rfl | rfl | rfl | rfl | rfl
  all_goals exact ⟨_, rfl, by decide, by decide⟩

section
variable {text rest : List Char} {c : Char}

/-! ## Piece by piece -/

theorem decodeChars_entity {entry : List Char × Char} (h : entry ∈ table) (rest : List Char) :
    decodeChars (entry.1 ++ rest) = entry.2 :: decodeChars rest := by
  simp only [table, List.mem_cons, List.not_mem_nil, or_false] at h
  rcases h with rfl | rfl | rfl | rfl | rfl
  all_goals rfl

/-- A text that does not begin with an entity. -/
def Bare (text : List Char) : Prop := ∀ entry ∈ table, ¬ entry.1 <+: text

theorem Bare.of_prefix {more : List Char} (h : Bare more) (htext : text <+: more) : Bare text :=
  fun entry hentry hstarts => h entry hentry (hstarts.trans htext)

theorem bare_of_ne (hc : c ≠ '&') (rest : List Char) : Bare (c :: rest) := by
  intro entry hentry hstarts
  obtain ⟨name, hname, -⟩ := table_form hentry
  rw [hname, List.cons_prefix_cons] at hstarts
  exact hc hstarts.1.symm

theorem decodeChars_cons (h : Bare (c :: rest)) :
    decodeChars (c :: rest) = c :: decodeChars rest := by
  simp only [Bare, table, List.forall_mem_cons] at h
  obtain ⟨hgt, hlt, hamp, hquot, hapos, -⟩ := h
  rw [decodeChars]
  · rintro after rfl rfl
    exact hgt ⟨after, rfl⟩
  · rintro after rfl rfl
    exact hlt ⟨after, rfl⟩
  · rintro after rfl rfl
    exact hamp ⟨after, rfl⟩
  · rintro after rfl rfl
    exact hquot ⟨after, rfl⟩
  · rintro after rfl rfl
    exact hapos ⟨after, rfl⟩

theorem decodeChars_append_of_not_mem {part : List Char} (h : '&' ∉ part) (rest : List Char) :
    decodeChars (part ++ rest) = part ++ decodeChars rest := by
  induction part with
  | nil => rfl
  | cons c part ih =>
    rw [List.mem_cons, not_or] at h
    obtain ⟨hc, hpart⟩ := h
    rw [List.cons_append, decodeChars_cons (bare_of_ne (Ne.symm hc) _), ih hpart,
      List.cons_append]

/-- A text is nothing, an entity and more, or a character that begins none and more. -/
theorem induction {motive : List Char → Prop} (nil : motive [])
    (entity : ∀ entry ∈ table, ∀ rest, motive rest → motive (entry.1 ++ rest))
    (char : ∀ c rest, Bare (c :: rest) → motive rest → motive (c :: rest)) (text : List Char) :
    motive text := by
  induction hlength : text.length using Nat.strongRecOn generalizing text with
  | ind length ih =>
    subst hlength
    by_cases h : ∃ entry ∈ table, entry.1 <+: text
    · obtain ⟨entry, hentry, rest, rfl⟩ := h
      obtain ⟨name, hname, -⟩ := table_form hentry
      refine entity entry hentry rest (ih _ ?_ rest rfl)
      rw [List.length_append, hname, List.length_cons]
      omega
    · cases text with
      | nil => exact nil
      | cons c rest =>
        refine char c rest (fun entry hentry hstarts => h ⟨entry, hentry, hstarts⟩) ?_
        exact ih _ (Nat.lt_succ_self _) rest rfl

/-! ## Escaping -/

/-- The ways to write a text with entities: an ampersand is always written as its entity, the other
characters of the table as theirs or as themselves. -/
inductive Escapes : List Char → List Char → Prop
  | nil : Escapes [] []
  | named {entry : List Char × Char} {text written : List Char} : entry ∈ table →
      Escapes text written → Escapes (entry.2 :: text) (entry.1 ++ written)
  | plain {c : Char} {text written : List Char} : c ≠ '&' → Escapes text written →
      Escapes (c :: text) (c :: written)

/-- Every ampersand begins an entity. -/
def Marked (written : List Char) : Prop :=
  ∀ after, '&' :: after <:+ written → ∃ entry ∈ table, entry.1 <+: '&' :: after

theorem Escapes.decodeChars_eq {written : List Char} (h : Escapes text written) :
    decodeChars written = text := by
  induction h with
  | nil => rfl
  | named hentry _ ih => rw [decodeChars_entity hentry, ih]
  | plain hc _ ih => rw [decodeChars_cons (bare_of_ne hc _), ih]

theorem isSuffix_of_append {part after : List Char} (hpart : '&' ∉ part)
    (h : '&' :: after <:+ part ++ text) : '&' :: after <:+ text := by
  induction part with
  | nil => exact h
  | cons c part ih =>
    rw [List.mem_cons, not_or] at hpart
    rcases List.suffix_cons_iff.mp h with heq | h
    · exact absurd (List.cons.inj heq).1 hpart.1
    · exact ih hpart.2 h

theorem Marked.entity {entry : List Char × Char} (hentry : entry ∈ table) (h : Marked text) :
    Marked (entry.1 ++ text) := by
  intro after hafter
  obtain ⟨name, hname, hfree, -⟩ := table_form hentry
  rw [hname, List.cons_append] at hafter
  rcases List.suffix_cons_iff.mp hafter with heq | hsuffix
  · refine ⟨entry, hentry, ?_⟩
    rw [heq, hname]
    exact List.prefix_append _ _
  · exact h after (isSuffix_of_append hfree hsuffix)

theorem Marked.of_suffix {more : List Char} (h : Marked more) (htext : text <:+ more) :
    Marked text := fun after hafter => h after (hafter.trans htext)

theorem Escapes.marked {written : List Char} (h : Escapes text written) : Marked written := by
  induction h with
  | nil => exact fun after hafter => absurd (List.suffix_nil.mp hafter) (List.cons_ne_nil _ _)
  | named hentry _ ih => exact ih.entity hentry
  | plain hc _ ih =>
    intro after hafter
    rcases List.suffix_cons_iff.mp hafter with heq | hsuffix
    · exact absurd (List.cons.inj heq).1.symm hc
    · exact ih after hsuffix

theorem Marked.escapes {written : List Char} (h : Marked written) :
    Escapes (decodeChars written) written := by
  induction written using Entity.induction with
  | nil => exact .nil
  | entity entry hentry rest ih =>
    rw [decodeChars_entity hentry]
    exact .named hentry (ih (h.of_suffix (List.suffix_append _ _)))
  | char c rest hbare ih =>
    rw [decodeChars_cons hbare]
    refine .plain ?_ (ih (h.of_suffix (List.suffix_cons c rest)))
    rintro rfl
    obtain ⟨entry, hentry, hstarts⟩ := h rest (List.suffix_refl _)
    exact hbare entry hentry hstarts

/-- **Decoding undoes every way of escaping a text**, and a text in which every ampersand begins an
entity is one of the ways to escape what it decodes to. -/
theorem escapes_iff (text written : String) :
    Escapes text.toList written.toList ↔ decode written = text ∧ Marked written.toList := by
  have hdecode : decode written = text ↔ decodeChars written.toList = text.toList := by
    rw [decode, ← String.toList_inj, String.toList_ofList]
  rw [hdecode]
  constructor
  · exact fun h => ⟨h.decodeChars_eq, h.marked⟩
  · rintro ⟨heq, hmarked⟩
    rw [← heq]
    exact hmarked.escapes

/- A text that spells an entity is decoded once. -/
example : decode "&amp;lt; is &lt;, &amp;amp; is &" = "&lt; is <, &amp; is &" := by decide

/-! ## Cutting a text -/

/-- Two parts of a text that are decoded apart from each other, and that no entity joins. -/
def Cut (before after : List Char) : Prop :=
  ∀ part, part <:+ before → decodeChars (part ++ after) = decodeChars part ++ decodeChars after

namespace Cut

variable {before after : List Char}

theorem decodeChars_append (h : Cut before after) :
    decodeChars (before ++ after) = decodeChars before ++ decodeChars after :=
  h before (List.suffix_refl _)

theorem nil (after : List Char) : Cut [] after := by
  intro part hpart
  rw [List.suffix_nil.mp hpart]
  rfl

theorem entity {entry : List Char × Char} (hentry : entry ∈ table) (h : Cut before after) :
    Cut (entry.1 ++ before) after := by
  intro part hpart
  obtain ⟨name, hname, hfree, -⟩ := table_form hentry
  rw [hname, List.cons_append] at hpart
  rcases List.suffix_cons_iff.mp hpart with rfl | ⟨skipped, hskipped⟩
  · rw [← List.cons_append, ← hname, List.append_assoc, decodeChars_entity hentry,
      decodeChars_entity hentry, h.decodeChars_append, List.cons_append]
  · rcases List.append_eq_append_iff.mp hskipped with ⟨tail, rfl, rfl⟩ | ⟨more, -, rfl⟩
    · -- the part begins inside the entity, whose end is decoded as it stands
      have htail : '&' ∉ tail := fun hmem => hfree (List.mem_append_right _ hmem)
      rw [List.append_assoc, decodeChars_append_of_not_mem htail,
        decodeChars_append_of_not_mem htail, h.decodeChars_append, List.append_assoc]
    · exact h part (List.suffix_append more part)

theorem cons (hbare : Bare (c :: (before ++ after))) (h : Cut before after) :
    Cut (c :: before) after := by
  intro part hpart
  rcases List.suffix_cons_iff.mp hpart with rfl | hpart
  · have hbefore : Bare (c :: before) := hbare.of_prefix (List.prefix_append (c :: before) after)
    rw [decodeChars_cons hbefore, List.cons_append, decodeChars_cons hbare, h.decodeChars_append,
      List.cons_append]
  · exact h part hpart

end Cut

/-- Where a decoded text can be cut, the text can. -/
theorem exists_cut {left right : List Char} (h : decodeChars text = left ++ right) :
    ∃ before after, text = before ++ after ∧ Cut before after ∧ decodeChars before = left ∧
      decodeChars after = right := by
  -- along the pieces of the text, until as much has been decoded as stands on the left
  induction text using Entity.induction generalizing left with
  | nil =>
    obtain ⟨rfl, rfl⟩ := List.append_eq_nil_iff.mp h.symm
    exact ⟨[], [], rfl, .nil [], rfl, rfl⟩
  | entity entry hentry rest ih =>
    cases left with
    | nil => exact ⟨[], _, rfl, .nil _, rfl, h⟩
    | cons c left =>
      rw [decodeChars_entity hentry, List.cons_append] at h
      obtain ⟨rfl, hrest⟩ := List.cons.inj h
      obtain ⟨before, after, rfl, hcut, rfl, rfl⟩ := ih hrest
      exact ⟨entry.1 ++ before, after, (List.append_assoc _ _ _).symm, hcut.entity hentry,
        decodeChars_entity hentry before, rfl⟩
  | char c rest hbare ih =>
    cases left with
    | nil => exact ⟨[], _, rfl, .nil _, rfl, h⟩
    | cons d left =>
      rw [decodeChars_cons hbare, List.cons_append] at h
      obtain ⟨rfl, hrest⟩ := List.cons.inj h
      obtain ⟨before, after, rfl, hcut, rfl, rfl⟩ := ih hrest
      exact ⟨c :: before, after, rfl, hcut.cons hbare,
        decodeChars_cons (hbare.of_prefix (List.prefix_append (c :: before) after)), rfl⟩

theorem decodeChars_eq_nil_iff : decodeChars text = [] ↔ text = [] := by
  induction text using Entity.induction with
  | nil => exact ⟨fun _ => rfl, fun _ => rfl⟩
  | entity entry hentry rest ih =>
    obtain ⟨name, hname, -⟩ := table_form hentry
    rw [decodeChars_entity hentry, hname]
    exact ⟨nofun, nofun⟩
  | char c rest hbare ih =>
    rw [decodeChars_cons hbare]
    exact ⟨nofun, nofun⟩

end

end AutomationNet.Entity
