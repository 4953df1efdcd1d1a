import AutomationNet.Proofs.Guard.Reading
import Mathlib.Data.List.Find

/-!
# Words and operators before a closing parenthesis

A word, a sign or an operator is read the same before a closing parenthesis as at the end of a text.
Who reads on after an expression finds the end there, a closing parenthesis, a comma or an operator.

* `Closes` : the end of a text, or a closing parenthesis
* `Parser.Steady` : a parser reads the same before a closing text
* `notOperator_steady`, `comparisonOperator_steady`, `andOperator_steady`, `orOperator_steady` :
  **the operators do**
* `Continues` : what can follow an expression of some level
* `Continues.or_fails`, `Continues.and_fails`, `Continues.comparison_fails` : no operator that would
  take the expression for its operand
* `Continues.word_or_sign` : a word, or what begins no operand
-/

namespace AutomationNet.Guard

/-- The end of a text, or a closing parenthesis and anything after it. -/
def Closes (more : List Char) : Prop := ∀ c ∈ more.head?, c = ')'

theorem Closes.nil : Closes [] := nofun

theorem Closes.close (rest : List Char) : Closes (')' :: rest) := by
  rintro c ⟨⟩
  rfl

section
variable {more text rest : List Char}

theorem Closes.head_append (h : Closes more) {c : Char} (hc : c ∈ (text ++ more).head?) :
    c ∈ text.head? ∨ c = ')' := by
  cases text with
  | nil => exact .inr (h c hc)
  | cons d cs => exact .inl hc

theorem Closes.skipSpace_append (h : Closes more) (text : List Char) :
    skipSpace (text ++ more) = skipSpace text ++ more := by
  refine dropWhile_append_stop text fun c hc => ?_
  rw [h c hc]
  decide

theorem Closes.wordEnds (h : Closes more) : WordEnds more := by
  intro c hc
  rw [h c hc]
  decide

theorem WordEnds.append (hrest : WordEnds rest) (h : Closes more) : WordEnds (rest ++ more) := by
  intro c hc
  cases rest with
  | nil => exact h.wordEnds c hc
  | cons d cs => exact hrest c hc

end

/-! ## Words, signs and operators -/

/-- A parser reads the same before a closing text. -/
structure Parser.Steady {α : Type} (p : Parser α) : Prop where
  ok : ∀ {text rest more : List Char} {a : α}, Closes more → p text = .ok (a, rest) →
    p (text ++ more) = .ok (a, rest ++ more)
  fails : ∀ {text more : List Char}, Closes more → p.Fails text → p.Fails (text ++ more)

section
variable {α : Type} {p q : Parser α}

theorem Parser.Steady.orElse (hp : p.Steady) (hq : q.Steady) : (p.orElse q).Steady where
  ok hmore h := by
    rcases Parser.orElse_eq_ok.mp h with h | ⟨hfails, h⟩
    · exact Parser.orElse_of_ok (hp.ok hmore h)
    · rw [Parser.orElse_of_fails (hp.fails hmore hfails)]
      exact hq.ok hmore h
  fails {text more} hmore h := by
    have hfails : p.Fails text := by
      rcases p.accepts_or_fails text with ⟨a, rest, hok⟩ | hfails
      · exact absurd h (Parser.Accepts.not_fails ⟨a, rest, Parser.orElse_of_ok hok⟩)
      · exact hfails
    rw [Parser.Fails, Parser.orElse_of_fails hfails] at h
    exact (hp.fails hmore hfails).orElse (hq.fails hmore h)

theorem word_steady : word.Steady where
  ok hmore h := by
    obtain ⟨hw, rfl, hrest⟩ := word_eq_ok.mp h
    rw [List.append_assoc]
    exact word_append hw (hrest.append hmore)
  fails {text more} hmore h := by
    refine word_fails fun c hc => ?_
    rcases hmore.head_append hc with hc | rfl
    · obtain ⟨cs, rfl⟩ := List.head?_eq_some_iff.mp hc
      cases hletter : isLetter c with
      | false => rfl
      | true =>
        obtain ⟨w, rest, htext, hw, hrest⟩ := exists_word hletter cs
        rw [htext] at h
        exact absurd h (Parser.Accepts.not_fails ⟨_, _, word_append hw hrest⟩)
    · decide

theorem keyword_steady (expected : List Char) : (keyword expected).Steady where
  ok hmore h := by
    obtain ⟨w, hw, rfl, hrest, hexpected⟩ := keyword_eq_ok.mp h
    rw [List.append_assoc]
    exact keyword_append hw (hrest.append hmore) hexpected
  fails {text more} hmore h := by
    rcases word.accepts_or_fails text with ⟨w, rest, hword⟩ | hword
    · obtain ⟨hw, rfl, hrest⟩ := word_eq_ok.mp hword
      rw [List.append_assoc]
      refine keyword_fails_of_ne hw (hrest.append hmore) fun hexpected => ?_
      exact Parser.Accepts.not_fails ⟨_, _, keyword_append hw hrest hexpected⟩ h
    · obtain ⟨stop, hstop⟩ := word_steady.fails hmore hword
      exact ⟨stop, by rw [keyword, hstop]⟩

theorem isPrefixOf_append {w text more : List Char} (hmore : Closes more) (hw : ')' ∉ w) :
    w.isPrefixOf (text ++ more) = w.isPrefixOf text := by
  induction w generalizing text with
  | nil => simp
  | cons c w ih =>
    obtain ⟨hc, hw⟩ := not_or.mp (mt List.mem_cons.mpr hw)
    cases text with
    | nil =>
      cases more with
      | nil => rfl
      | cons d more =>
        rw [hmore d rfl]
        simp [List.isPrefixOf, Ne.symm hc]
    | cons d cs => rw [List.cons_append, List.isPrefixOf, List.isPrefixOf, ih hw]

theorem literal_steady {w : List Char} (hw : ')' ∉ w) : (literal w).Steady where
  ok hmore h := by
    rw [literal_eq_ok.mp h, List.append_assoc]
    exact literal_eq_ok.mpr rfl
  fails {text more} hmore h := by
    refine ⟨text ++ more, ?_⟩
    rw [literal, isPrefixOf_append hmore hw]
    obtain ⟨stop, hstop⟩ := h
    rw [literal] at hstop
    split at hstop
    · cases hstop
    · rename_i hprefix
      exact if_neg hprefix

theorem notMark_steady : notMark.Steady where
  ok hmore h := by
    obtain ⟨rfl, hhead⟩ := notMark_eq_ok.mp h
    refine notMark_eq_ok.mpr ⟨rfl, fun heq => ?_⟩
    rcases hmore.head_append heq with heq | heq
    · exact hhead heq
    · cases heq
  fails {text more} hmore h := by
    rcases notMark.accepts_or_fails (text ++ more) with ⟨_, rest, hok⟩ | hfails
    · obtain ⟨htext, hhead⟩ := notMark_eq_ok.mp hok
      rcases List.append_eq_cons_iff.mp htext with ⟨-, rfl⟩ | ⟨cs, rfl, rfl⟩
      · exact absurd (hmore '!' rfl) (by decide)
      · refine absurd h (Parser.Accepts.not_fails ⟨(), cs, notMark_eq_ok.mpr ⟨rfl, fun heq => ?_⟩⟩)
        obtain ⟨ds, rfl⟩ := List.head?_eq_some_iff.mp heq
        exact hhead rfl
    · exact hfails

theorem notOperator_steady : notOperator.Steady := (keyword_steady _).orElse notMark_steady

theorem comparisonOperator_steady : comparisonOperator.Steady := by
  have hfind : ∀ {text more : List Char}, Closes more →
      comparisonTable.find? (fun entry => entry.1.isPrefixOf (text ++ more)) =
        comparisonTable.find? fun entry => entry.1.isPrefixOf text := by
    refine fun hmore => List.find?_congr fun entry hentry => isPrefixOf_append hmore ?_
    revert entry
    decide
  refine ⟨fun {text rest more op} hmore h => ?_, fun {text more} hmore h => ?_⟩
  · rw [comparisonOperator] at h
    split at h
    · rename_i spelling op' hop
      cases h
      have hprefix := List.find?_some hop
      obtain ⟨after, rfl⟩ := List.isPrefixOf_iff_prefix.mp hprefix
      rw [comparisonOperator, hfind hmore, hop]
      simp
    · cases h
  · refine ⟨text ++ more, ?_⟩
    obtain ⟨stop, hstop⟩ := h
    rw [comparisonOperator] at hstop
    split at hstop
    · cases hstop
    · rename_i hnone
      rw [comparisonOperator, hfind hmore, hnone]

theorem andOperator_steady : andOperator.Steady :=
  (literal_steady (by decide)).orElse (keyword_steady _)

theorem orOperator_steady : orOperator.Steady :=
  (literal_steady (by decide)).orElse (keyword_steady _)

end

/-! ## What can follow an expression -/

/-- The signs that can follow an expression that is read on, each with the level from which on. -/
def followingSigns : List (Char × Nat) :=
  [(')', 0), (',', 0), ('|', 1), ('&', 2), ('>', 3), ('<', 3), ('=', 3), ('!', 3)]

/-- The words that can follow an expression that is read on, each with the level from which on. -/
def followingWords : List (List Char × Nat) := [(['o', 'r'], 1), (['a', 'n', 'd'], 2)]

/-- What is left of a text after an expression of some level, if the text can be read on: the end, a
closing parenthesis or a comma, or an operator that takes such an expression for its operand. -/
inductive Continues (level : Nat) (rest : List Char) : Prop where
  | sign (h : ∀ c ∈ (skipSpace rest).head?, ∃ n ≤ level, (c, n) ∈ followingSigns)
      (hmark : ∀ cs, skipSpace rest = '!' :: cs → cs.head? = some '=')
  | word {w after : List Char} {n : Nat} (hw : IsWord w) (hrest : skipSpace rest = w ++ after)
      (hafter : WordEnds after) (hn : n ≤ level) (h : (w.map Char.toLower, n) ∈ followingWords)

namespace Continues

variable {level : Nat} {more text rest : List Char}

theorem mono {level' : Nat} (h : Continues level rest) (hlevel : level ≤ level') :
    Continues level' rest := by
  cases h with
  | sign h hmark =>
    refine .sign (fun c hc => ?_) hmark
    obtain ⟨n, hn, hmem⟩ := h c hc
    exact ⟨n, Nat.le_trans hn hlevel, hmem⟩
  | word hw hrest hafter hn h => exact .word hw hrest hafter (Nat.le_trans hn hlevel) h

theorem of_skipSpace (h : Continues level (skipSpace rest)) : Continues level rest := by
  cases h with
  | sign h hmark =>
    rw [skipSpace_skipSpace] at h hmark
    exact .sign h hmark
  | word hw hrest hafter hn h =>
    rw [skipSpace_skipSpace] at hrest
    exact .word hw hrest hafter hn h

theorem nil (level : Nat) : Continues level [] := .sign nofun nofun

theorem of_head {c : Char} {cs : List Char} (hrest : skipSpace rest = c :: cs) {n : Nat}
    (h : (c, n) ∈ followingSigns) (hc : c ≠ '!') : Continues n rest := by
  refine .sign (fun d hd => ?_) fun ds hds => ?_
  · rw [hrest] at hd
    cases hd
    exact ⟨n, Nat.le_refl n, h⟩
  · exact absurd (List.cons.inj (hrest.symm.trans hds)).1 hc

theorem close (rest : List Char) : Continues 0 (')' :: rest) :=
  of_head (skipSpace_cons (by decide)) (by decide) (by decide)

theorem of_connective {sign : Char} {name : List Char} {n : Nat}
    (hsign : (sign, n) ∈ followingSigns) (hmark : sign ≠ '!') (hname : (name, n) ∈ followingWords)
    (h : (Parser.orElse (literal [sign, sign]) (keyword name)).Accepts (skipSpace rest)) :
    Continues n rest := by
  obtain ⟨_, after, hok⟩ := h
  rcases connective_eq_ok hok with htext | ⟨w, hw, htext, hafter, rfl⟩
  · exact of_head htext hsign hmark
  · exact .word hw htext hafter (Nat.le_refl n) hname

theorem of_orOperator (h : orOperator.Accepts (skipSpace rest)) : Continues 1 rest :=
  of_connective (by decide) (by decide) (by decide) h

theorem of_andOperator (h : andOperator.Accepts (skipSpace rest)) : Continues 2 rest :=
  of_connective (by decide) (by decide) (by decide) h

theorem of_comparisonOperator (h : comparisonOperator.Accepts (skipSpace rest)) :
    Continues 3 rest := by
  rcases head_of_comparisonOperator h with ⟨c, cs, htext, rfl | rfl | rfl⟩ | ⟨cs, htext⟩
  · exact of_head htext (by decide) (by decide)
  · exact of_head htext (by decide) (by decide)
  · exact of_head htext (by decide) (by decide)
  · refine .sign (fun d hd => ?_) fun ds hds => ?_
    · rw [htext] at hd
      cases hd
      exact ⟨3, Nat.le_refl 3, by decide⟩
    · rw [htext] at hds
      cases hds
      rfl

/-! An expression that has been read to its end is followed by no operator that would take it for an
operand. -/

theorem sign_forall {P : Char → Prop} (h : ∀ c ∈ text.head?, ∃ n ≤ level, (c, n) ∈ followingSigns)
    (hP : ∀ entry ∈ followingSigns, entry.2 ≤ level → P entry.1) : ∀ c ∈ text.head?, P c := by
  intro c hc
  obtain ⟨n, hn, hmem⟩ := h c hc
  exact hP (c, n) hmem hn

theorem head_ne {c : Char} (h : ∀ d ∈ text.head?, d ≠ c) : text.head? ≠ some c :=
  fun heq => h c heq rfl

theorem or_fails (h : Continues 0 rest) : orOperator.Fails (skipSpace rest) := by
  cases h with
  | sign h _ =>
    exact orOperator_fails (keyword_fails_of_head (sign_forall h (by decide)))
      (head_ne (sign_forall h (by decide)))
  | @word w _ n _ _ _ hn h =>
    exact absurd hn ((by decide : ∀ entry ∈ followingWords, ¬ entry.2 ≤ 0) _ h)

theorem and_fails (h : Continues 1 rest) : andOperator.Fails (skipSpace rest) := by
  cases h with
  | sign h _ =>
    exact andOperator_fails (keyword_fails_of_head (sign_forall h (by decide)))
      (head_ne (sign_forall h (by decide)))
  | word hw hrest hafter hn h =>
    rw [hrest]
    exact andOperator_fails (keyword_fails_of_ne hw hafter
      ((by decide : ∀ entry ∈ followingWords, entry.2 ≤ 1 → entry.1 ≠ ['a', 'n', 'd']) _ h hn))
      (hw.head?_append_ne (by decide))

theorem comparison_fails (h : Continues 2 rest) : comparisonOperator.Fails (skipSpace rest) := by
  cases h with
  | sign h _ =>
    have hgt := sign_forall (P := (· ≠ '>')) h (by decide)
    have hlt := sign_forall (P := (· ≠ '<')) h (by decide)
    have heq := sign_forall (P := (· ≠ '=')) h (by decide)
    have hmark := sign_forall (P := (· ≠ '!')) h (by decide)
    cases hskip : skipSpace rest with
    | nil => exact ⟨[], rfl⟩
    | cons c cs =>
      rw [hskip] at hgt hlt heq hmark
      exact comparisonOperator_fails (hgt c rfl) (hlt c rfl) (heq c rfl) (hmark c rfl)
  | word hw hrest hafter hn h =>
    rw [hrest]
    obtain ⟨c, cs, rfl, hc⟩ := hw.head
    exact comparisonOperator_fails (ne_of_isLetter hc (by decide)) (ne_of_isLetter hc (by decide))
      (ne_of_isLetter hc (by decide)) (ne_of_isLetter hc (by decide))

theorem word_or_sign (h : Continues 3 rest) (hmore : Closes more) :
    (∃ w after, IsWord w ∧ skipSpace rest = w ++ after ∧ WordEnds after) ∨
      (∀ c ∈ (skipSpace rest ++ more).head?, beginsPrimary c = false) ∧
        notOperator.Fails (skipSpace rest ++ more) := by
  cases h with
  | word hw hrest hafter hn h => exact .inl ⟨_, _, hw, hrest, hafter⟩
  | sign h hmark =>
    refine .inr ⟨fun c hc => ?_, notOperator_steady.fails hmore ?_⟩
    · rcases hmore.head_append hc with hc | rfl
      · exact sign_forall (P := (beginsPrimary · = false)) h (by decide) c hc
      · decide
    · have hletter := sign_forall (P := (isLetter · = false)) h (by decide)
      rcases notOperator.accepts_or_fails (skipSpace rest) with ⟨_, inner, hok⟩ | hfails
      · rcases notOperator_eq_ok.mp hok with ⟨w, hw, htext, -, -⟩ | ⟨htext, hhead⟩
        · obtain ⟨c, cs, rfl, hc⟩ := hw.head
          rw [htext] at hletter
          exact absurd ((hletter c rfl).symm.trans hc) Bool.false_ne_true
        · exact absurd (hmark inner htext) hhead
      · exact hfails

/-- An operand is not called by what follows it. -/
theorem head_ne_open (h : Continues 3 rest) (hmore : Closes more) :
    (skipSpace (rest ++ more)).head? ≠ some '(' := by
  rw [hmore.skipSpace_append]
  rcases h.word_or_sign hmore with ⟨w, after, hw, hrest, -⟩ | ⟨hhead, -⟩
  · rw [hrest, List.append_assoc]
    exact hw.head?_append_ne (by decide)
  · exact fun heq => absurd (hhead '(' heq) (by decide)

end Continues

end AutomationNet.Guard
