import AutomationNet.Proofs.Guard.Inversion

/-!
# Texts that are read whatever follows

The level at which a text stands in the grammar tells what may come after it. A text is read at a
level if the parsers of that level read it, and nothing more, before everything that ends it there.

* `IsName` : the words that the grammar reads as inputs
* `Ends` : a text before which an expression of some level ends
* `Reads` : the grammar reads a text as a tree at some level, whatever follows
* `Reads.of_le`, `Reads.parenthesized` : what binds more tightly is read at a looser level, and in
  parentheses everything is read at every level
* `Spells` : how an operator is written between two operands
* `parse_of_reads` : **a text that is read at the loosest level is parsed as its tree**
-/

namespace AutomationNet.Guard

/-! ## Names -/

def reservedWords : List (List Char) :=
  [['a', 'n', 'd'], ['o', 'r'], ['n', 'o', 't'], ['t', 'r', 'u', 'e'], ['f', 'a', 'l', 's', 'e']]

/-- A word other than those with a meaning of their own, which they have in any case. -/
def IsName (w : List Char) : Prop := IsWord w ∧ w.map Char.toLower ∉ reservedWords

instance : DecidablePred IsName := fun w =>
  inferInstanceAs (Decidable (IsWord w ∧ w.map Char.toLower ∉ reservedWords))

/-! ## Where an expression ends -/

/-- A text before which an expression ends that is read at a level: no word, number or call goes on,
and no operator follows that would take the expression for its operand. -/
structure Ends (level : Nat) (rest : List Char) : Prop where
  word : WordEnds rest
  point : rest.head? ≠ some '.'
  call : (skipSpace rest).head? ≠ some '('
  comparison : level ≤ 2 → comparisonOperator.Fails (skipSpace rest)
  and : level ≤ 1 → andOperator.Fails (skipSpace rest)
  or : level = 0 → orOperator.Fails (skipSpace rest)

namespace Ends

variable {level : Nat} {rest : List Char}

theorem mono {level' : Nat} (h : Ends level rest) (hlevel : level ≤ level') : Ends level' rest :=
  ⟨h.word, h.point, h.call, fun h2 => h.comparison (Nat.le_trans hlevel h2),
    fun h1 => h.and (Nat.le_trans hlevel h1), fun h0 => h.or (by omega)⟩

theorem nil (level : Nat) : Ends level [] :=
  ⟨nofun, nofun, nofun, fun _ => ⟨[], rfl⟩, fun _ => ⟨[], rfl⟩, fun _ => ⟨[], rfl⟩⟩

theorem close (level : Nat) (rest : List Char) : Ends level (')' :: rest) := by
  have hhead : ∀ c ∈ (')' :: rest).head?, isLetter c = false := by
    rintro c ⟨⟩
    decide
  refine ⟨?_, by simp, ?_, fun _ => ?_, fun _ => ?_, fun _ => ?_⟩
  · rintro c ⟨⟩
    decide
  all_goals rw [skipSpace_cons (by decide)]
  · simp
  · exact comparisonOperator_fails (by decide) (by decide) (by decide) (by decide)
  · exact andOperator_fails (keyword_fails_of_head hhead) (by simp)
  · exact orOperator_fails (keyword_fails_of_head hhead) (by simp)

theorem space (rest : List Char) : WordEnds (' ' :: rest) := by
  rintro c ⟨⟩
  decide

/-- A word after a blank ends an expression, unless the word is an operator that takes it. -/
theorem of_word {w : List Char} (hw : IsWord w) (hrest : WordEnds rest)
    (hand : level ≤ 1 → w.map Char.toLower ≠ ['a', 'n', 'd'])
    (hor : level = 0 → w.map Char.toLower ≠ ['o', 'r']) : Ends level (' ' :: (w ++ rest)) := by
  obtain ⟨c, cs, rfl, hc⟩ := hw.head
  have hskip : skipSpace (' ' :: (c :: cs ++ rest)) = c :: cs ++ rest :=
    skipSpace_cons (isSpace_of_isLetter hc)
  refine ⟨space _, by simp, ?_, fun _ => ?_, fun h1 => ?_, fun h0 => ?_⟩
  all_goals rw [hskip]
  · exact hw.head?_append_ne (by decide)
  · exact comparisonOperator_fails (ne_of_isLetter hc (by decide)) (ne_of_isLetter hc (by decide))
      (ne_of_isLetter hc (by decide)) (ne_of_isLetter hc (by decide))
  · exact andOperator_fails (keyword_fails_of_ne hw hrest (hand h1))
      (hw.head?_append_ne (by decide))
  · exact orOperator_fails (keyword_fails_of_ne hw hrest (hor h0)) (hw.head?_append_ne (by decide))

theorem of_sign {c : Char} (hspace : isSpace c = false) (hletter : isLetter c = false)
    (hcall : c ≠ '(') (hlevel : level ≠ 0)
    (hcomparison : level ≤ 2 → c ≠ '>' ∧ c ≠ '<' ∧ c ≠ '=' ∧ c ≠ '!')
    (hand : level ≤ 1 → c ≠ '&') : Ends level (' ' :: c :: rest) := by
  have hskip : skipSpace (' ' :: c :: rest) = c :: rest := skipSpace_cons hspace
  have hhead : ∀ d ∈ (c :: rest).head?, isLetter d = false := by
    rintro d ⟨⟩
    exact hletter
  refine ⟨space _, by simp, ?_, fun h2 => ?_, fun h1 => ?_, fun h0 => absurd h0 hlevel⟩
  all_goals rw [hskip]
  · simpa using hcall
  · obtain ⟨hgt, hlt, heq, hmark⟩ := hcomparison h2
    exact comparisonOperator_fails hgt hlt heq hmark
  · exact andOperator_fails (keyword_fails_of_head hhead) (by simpa using hand h1)

end Ends

/-! ## Operators between operands -/

/-- A text that an operator is read from if blanks stand around it, and that ends an operand. -/
structure Spells {α : Type} (operator : Parser α) (level : Nat) (w : List Char) (a : α) : Prop where
  starts : ∃ c cs, w = c :: cs ∧ isSpace c = false
  reads : ∀ rest, operator (w ++ ' ' :: rest) = .ok (a, ' ' :: rest)
  ends : ∀ rest, Ends level (' ' :: (w ++ ' ' :: rest))

namespace Spells

variable {w : List Char}

theorem skipSpace_append {α : Type} {operator : Parser α} {level : Nat} {a : α}
    (h : Spells operator level w a) (rest : List Char) :
    skipSpace (' ' :: (w ++ ' ' :: rest)) = w ++ ' ' :: rest := by
  obtain ⟨c, cs, rfl, hspace⟩ := h.starts
  exact skipSpace_cons hspace

theorem and_word (hw : IsWord w) (h : w.map Char.toLower = ['a', 'n', 'd']) :
    Spells andOperator 2 w () := by
  obtain ⟨c, cs, hcons, hc⟩ := hw.head
  exact ⟨⟨c, cs, hcons, isSpace_of_isLetter hc⟩,
    fun _ => andOperator_append hw (Ends.space _) h,
    fun _ => .of_word hw (Ends.space _) (absurd · (by decide)) (absurd · (by decide))⟩

theorem or_word (hw : IsWord w) (h : w.map Char.toLower = ['o', 'r']) :
    Spells orOperator 1 w () := by
  obtain ⟨c, cs, hcons, hc⟩ := hw.head
  refine ⟨⟨c, cs, hcons, isSpace_of_isLetter hc⟩,
    fun _ => orOperator_append hw (Ends.space _) h,
    fun _ => .of_word hw (Ends.space _) (fun _ => ?_) (absurd · (by decide))⟩
  rw [h]
  decide

theorem and_sign : Spells andOperator 2 ['&', '&'] () :=
  ⟨⟨'&', ['&'], rfl, by decide⟩, fun _ => rfl,
    fun _ => .of_sign (by decide) (by decide) (by decide) (by decide) (by decide) (by decide)⟩

theorem or_sign : Spells orOperator 1 ['|', '|'] () :=
  ⟨⟨'|', ['|'], rfl, by decide⟩, fun _ => rfl,
    fun _ => .of_sign (by decide) (by decide) (by decide) (by decide) (by decide) (by decide)⟩

theorem comparison {op : Comparison} (h : (w, op) ∈ comparisonTable) :
    Spells comparisonOperator 3 w op := by
  simp only [comparisonTable, List.mem_cons, Prod.mk.injEq, List.not_mem_nil, or_false] at h
  rcases h with ⟨rfl, rfl⟩ | ⟨rfl, rfl⟩ | ⟨rfl, rfl⟩ | ⟨rfl, rfl⟩ | ⟨rfl, rfl⟩ | ⟨rfl, rfl⟩ |
    ⟨rfl, rfl⟩ | ⟨rfl, rfl⟩ | ⟨rfl, rfl⟩ | ⟨rfl, rfl⟩
  all_goals
    exact ⟨⟨_, _, rfl, by decide⟩, fun _ => rfl,
      fun _ => .of_sign (by decide) (by decide) (by decide) (by decide) (by decide) (by decide)⟩

end Spells

/-! ## Reading at a level -/

/-- The grammar reads a text as a tree at a level, whatever follows. Conjunctions and disjunctions
may go on after it. -/
def ReadsAt (nested : Parser Syntax) (text : List Char) (tree : Syntax) : (level : Nat) → Prop
  | 0 => ∀ rest, Ends 1 rest →
    Joins orOperator .or (conjunction nested) (text ++ rest) (skipSpace rest) tree
  | 1 => ∀ rest, Ends 2 rest →
    Joins andOperator .and (comparison nested) (text ++ rest) (skipSpace rest) tree
  | 2 => ∀ rest, Ends 2 rest → comparison nested (text ++ rest) = .ok (tree, skipSpace rest)
  | _ => ∀ rest, Ends 3 rest → ∀ count, text.length ≤ count →
    unary nested count (text ++ rest) = .ok (tree, skipSpace rest)

/-- A text that does not begin with a blank is read at a level. -/
structure Reads (nested : Parser Syntax) (text : List Char) (tree : Syntax) (level : Nat) : Prop where
  starts : ∃ c cs, text = c :: cs ∧ isSpace c = false
  readsAt : ReadsAt nested text tree level

namespace Reads

variable {nested : Parser Syntax} {text rest : List Char} {tree : Syntax} {level : Nat}

theorem length_skipSpace_le (text rest : List Char) :
    (skipSpace rest).length ≤ (text ++ rest).length := by
  rw [List.length_append]
  exact Nat.le_trans (List.length_dropWhile_le _ _) (Nat.le_add_left _ _)

theorem skipSpace_append (h : Reads nested text tree level) (rest : List Char) :
    skipSpace (text ++ rest) = text ++ rest := by
  obtain ⟨c, cs, rfl, hspace⟩ := h.starts
  exact skipSpace_cons hspace

theorem skipSpace_space_append (h : Reads nested text tree level) (rest : List Char) :
    skipSpace (' ' :: (text ++ rest)) = text ++ rest := h.skipSpace_append rest

theorem unary (h : Reads nested text tree 3) (hrest : Ends 3 rest) {count : Nat}
    (hcount : text.length ≤ count) :
    Guard.unary nested count (text ++ rest) = .ok (tree, skipSpace rest) :=
  h.readsAt rest hrest count hcount

theorem comparison (h : Reads nested text tree 2) (hrest : Ends 2 rest) :
    Guard.comparison nested (text ++ rest) = .ok (tree, skipSpace rest) :=
  h.readsAt rest hrest

theorem conjunction (h : Reads nested text tree 1) (hrest : Ends 1 rest) :
    Guard.conjunction nested (text ++ rest) = .ok (tree, skipSpace rest) := by
  rw [conjunction_eq]
  refine Joins.joined (h.readsAt rest (hrest.mono (by decide))) ?_
  rw [skipSpace_skipSpace]
  exact hrest.and (Nat.le_refl 1)

theorem disjunction (h : Reads nested text tree 0) (hrest : Ends 0 rest) :
    Guard.disjunction nested (text ++ rest) = .ok (tree, skipSpace rest) := by
  rw [disjunction_eq]
  refine Joins.joined (h.readsAt rest (hrest.mono (by decide))) ?_
  rw [skipSpace_skipSpace]
  exact hrest.or rfl

/-- What is read at a level is read at the next looser one, as a single operand. -/
theorem lower (hlevel : level ≤ 2) (h : Reads nested text tree (level + 1)) :
    Reads nested text tree level := by
  refine ⟨h.starts, ?_⟩
  match level, hlevel, h with
  | 0, _, h =>
    exact fun rest hrest => .of_operand (h.conjunction hrest) (length_skipSpace_le text rest)
  | 1, _, h =>
    exact fun rest hrest => .of_operand (h.comparison hrest) (length_skipSpace_le text rest)
  | 2, _, h =>
    intro rest hrest
    refine comparison_of_unary (h.unary (hrest.mono (by decide)) ?_) ?_
    · rw [List.length_append]
      exact Nat.le_add_right _ _
    · rw [skipSpace_skipSpace]
      exact hrest.comparison (Nat.le_refl 2)

theorem of_le {level' : Nat} (h : Reads nested text tree level') (hle : level ≤ level')
    (hlevel : level' ≤ 3) : Reads nested text tree level := by
  induction hle with
  | refl => exact h
  | step _ ih => exact ih (h.lower (by omega)) (by omega)

/-- What is read before a closing parenthesis is read in parentheses at every level. -/
theorem of_parentheses (h : ∀ rest, nested (text ++ ')' :: rest) = .ok (tree, ')' :: rest))
    (hlevel : level ≤ 3) : Reads nested ('(' :: text ++ [')']) tree level := by
  have hunary : Reads nested ('(' :: text ++ [')']) tree 3 := by
    refine ⟨⟨'(', text ++ [')'], rfl, by decide⟩, fun rest _ count _ => ?_⟩
    have htext : '(' :: text ++ [')'] ++ rest = '(' :: text ++ ')' :: rest := by simp
    have hnot : notOperator.Fails (skipSpace ('(' :: text ++ ')' :: rest)) :=
      notOperator_fails_of_head (by decide) (by decide)
    rw [htext, unary_of_primary hnot, primary_parenthesized (h rest)]
  exact hunary.of_le hlevel (Nat.le_refl 3)

theorem parenthesized {depth : Nat} (h : Reads (expression depth) text tree 0) (hlevel : level ≤ 3) :
    Reads (expression (depth + 1)) ('(' :: text ++ [')']) tree level :=
  of_parentheses (fun rest => h.disjunction (Ends.close 0 rest)) hlevel

/-! ### The constructors -/

theorem of_primary (hstarts : ∃ c cs, text = c :: cs ∧ isSpace c = false)
    (hnot : ∀ rest, Ends 3 rest → notOperator.Fails (text ++ rest))
    (hprimary : ∀ rest, Ends 3 rest → primary nested (text ++ rest) = .ok (tree, skipSpace rest)) :
    Reads nested text tree 3 := by
  refine ⟨hstarts, fun rest hrest count _ => ?_⟩
  obtain ⟨c, cs, rfl, hspace⟩ := hstarts
  have hnot' : notOperator.Fails (skipSpace (c :: cs ++ rest)) := by
    rw [List.cons_append, skipSpace_cons hspace]
    exact hnot rest hrest
  rw [unary_of_primary hnot', hprimary rest hrest]

theorem bool (value : Bool) {w : List Char} (hw : IsWord w)
    (h : w.map Char.toLower = if value then ['t', 'r', 'u', 'e'] else ['f', 'a', 'l', 's', 'e']) :
    Reads nested w (.bool value) 3 := by
  obtain ⟨c, cs, hcons, hc⟩ := hw.head
  refine of_primary ⟨c, cs, hcons, isSpace_of_isLetter hc⟩ (fun rest hrest => ?_)
    (fun rest hrest => primary_bool value hw hrest.word h)
  refine notOperator_fails_of_ne hw hrest.word ?_
  rw [h]
  cases value <;> decide

theorem number (h : Guard.number text = .ok (tree, [])) : Reads nested text tree 3 := by
  obtain ⟨c, cs, hcons, hspace, hletter, hmark⟩ := number_head h
  refine of_primary ⟨c, cs, hcons, hspace⟩ (fun rest _ => ?_)
    (fun rest hrest => primary_number h hrest.word hrest.point)
  rw [hcons]
  exact notOperator_fails_of_head hletter hmark

theorem ident {w : List Char} (h : IsName w) : Reads nested w (.ident (String.ofList w)) 3 := by
  obtain ⟨hw, hreserved⟩ := h
  have hne : ∀ word ∈ reservedWords, w.map Char.toLower ≠ word := by
    rintro word hmem rfl
    exact hreserved hmem
  obtain ⟨c, cs, hcons, hc⟩ := hw.head
  exact of_primary ⟨c, cs, hcons, isSpace_of_isLetter hc⟩
    (fun rest hrest => notOperator_fails_of_ne hw hrest.word (hne _ (by decide)))
    (fun rest hrest =>
      primary_ident hw hrest.word hrest.call (hne _ (by decide)) (hne _ (by decide)))

/-- A negation and what it negates, maybe with blanks between them. -/
theorem not_of_operator {w : List Char} (hstarts : ∃ c cs, w = c :: cs ∧ isSpace c = false)
    (hnot : ∀ rest, ∃ inner, notOperator (w ++ (text ++ rest)) = .ok ((), inner) ∧
      skipSpace inner = text ++ rest)
    (h : Reads nested text tree 3) : Reads nested (w ++ text) (.not tree) 3 := by
  obtain ⟨c, cs, rfl, hspace⟩ := hstarts
  refine ⟨⟨c, cs ++ text, rfl, hspace⟩, fun rest hrest count hcount => ?_⟩
  obtain ⟨count, rfl⟩ : ∃ fewer, count = fewer + 1 :=
    ⟨count - 1, by simp only [List.cons_append, List.length_cons] at hcount; omega⟩
  obtain ⟨inner, hread, hinner⟩ := hnot rest
  have hskip : skipSpace (c :: cs ++ text ++ rest) = c :: cs ++ (text ++ rest) := by
    rw [List.append_assoc, List.cons_append]
    exact skipSpace_cons hspace
  rw [← hskip] at hread
  refine unary_not hread ?_
  rw [← unary_skipSpace, hinner]
  refine h.unary hrest ?_
  simp only [List.cons_append, List.length_cons, List.length_append] at hcount
  omega

theorem not_word {w : List Char} (hw : IsWord w) (hnot : w.map Char.toLower = ['n', 'o', 't'])
    (h : Reads nested text tree 3) : Reads nested (w ++ [' '] ++ text) (.not tree) 3 := by
  obtain ⟨c, cs, rfl, hc⟩ := hw.head
  refine not_of_operator ⟨c, cs ++ [' '], rfl, isSpace_of_isLetter hc⟩ (fun rest => ?_) h
  refine ⟨' ' :: (text ++ rest), ?_, h.skipSpace_space_append rest⟩
  have htext : c :: cs ++ [' '] ++ (text ++ rest) = c :: cs ++ ' ' :: (text ++ rest) := by simp
  rw [htext]
  exact notOperator_eq_ok.mpr (.inl ⟨c :: cs, hw, rfl, Ends.space _, hnot⟩)

theorem not_mark (hmark : text.head? ≠ some '=') (h : Reads nested text tree 3) :
    Reads nested (['!'] ++ text) (.not tree) 3 := by
  refine not_of_operator ⟨'!', [], rfl, by decide⟩ (fun rest => ?_) h
  refine ⟨text ++ rest, notOperator_eq_ok.mpr (.inr ⟨rfl, ?_⟩), h.skipSpace_append rest⟩
  obtain ⟨c, cs, rfl, -⟩ := h.starts
  exact hmark

section
variable {left right w : List Char} {leftTree rightTree : Syntax}

theorem starts_append (h : Reads nested left leftTree level) (more : List Char) :
    ∃ c cs, left ++ more = c :: cs ∧ isSpace c = false := by
  obtain ⟨c, cs, rfl, hspace⟩ := h.starts
  exact ⟨c, cs ++ more, rfl, hspace⟩

theorem append_operator (left w right rest : List Char) :
    left ++ ' ' :: (w ++ ' ' :: right) ++ rest = left ++ ' ' :: (w ++ ' ' :: (right ++ rest)) := by
  simp

theorem compare {op : Comparison} (hw : Spells comparisonOperator 3 w op)
    (hleft : Reads nested left leftTree 3) (hright : Reads nested right rightTree 3) :
    Reads nested (left ++ ' ' :: (w ++ ' ' :: right)) (.compare op leftTree rightTree) 2 := by
  refine ⟨hleft.starts_append _, fun rest hrest => ?_⟩
  have hop : comparisonOperator (skipSpace (skipSpace (' ' :: (w ++ ' ' :: (right ++ rest))))) =
      .ok (op, ' ' :: (right ++ rest)) := by
    rw [skipSpace_skipSpace, hw.skipSpace_append]
    exact hw.reads _
  rw [append_operator]
  refine comparison_of_operator (hleft.unary (hw.ends _) ?_) hop ?_
  · rw [List.length_append]
    exact Nat.le_add_right _ _
  · rw [hright.skipSpace_space_append]
    refine hright.unary (hrest.mono (by decide)) ?_
    rw [List.length_append]
    exact Nat.le_add_right _ _

theorem next {connective : Parser Unit} {join : Syntax → Syntax → Syntax} {operand : Parser Syntax}
    {endLevel : Nat} (hright : Reads nested right rightTree level)
    (hw : Spells connective endLevel w ())
    (hleft : Joins connective join operand text (skipSpace (' ' :: (w ++ ' ' :: (right ++ rest))))
      leftTree)
    (hoperand : operand (right ++ rest) = .ok (rightTree, skipSpace rest)) :
    Joins connective join operand text (skipSpace rest) (join leftTree rightTree) := by
  have hskip := hw.skipSpace_append (right ++ rest)
  have hconnective : connective (skipSpace (skipSpace (' ' :: (w ++ ' ' :: (right ++ rest))))) =
      .ok ((), ' ' :: (right ++ rest)) := by
    rw [skipSpace_skipSpace, hskip]
    exact hw.reads _
  have hnext : operand (skipSpace (' ' :: (right ++ rest))) = .ok (rightTree, skipSpace rest) := by
    rw [hright.skipSpace_space_append]
    exact hoperand
  refine hleft.next hconnective hnext ?_
  have hlength := length_skipSpace_le right rest
  rw [hskip, List.length_append, List.length_cons]
  omega

theorem and (hw : Spells andOperator 2 w ()) (hleft : Reads nested left leftTree 1)
    (hright : Reads nested right rightTree 2) :
    Reads nested (left ++ ' ' :: (w ++ ' ' :: right)) (.and leftTree rightTree) 1 := by
  refine ⟨hleft.starts_append _, fun rest hrest => ?_⟩
  rw [append_operator]
  exact hright.next hw (hleft.readsAt _ (hw.ends _)) (hright.comparison hrest)

theorem or (hw : Spells orOperator 1 w ()) (hleft : Reads nested left leftTree 0)
    (hright : Reads nested right rightTree 1) :
    Reads nested (left ++ ' ' :: (w ++ ' ' :: right)) (.or leftTree rightTree) 0 := by
  refine ⟨hleft.starts_append _, fun rest hrest => ?_⟩
  rw [append_operator]
  exact hright.next hw (hleft.readsAt _ (hw.ends _)) (hright.conjunction hrest)

end

end Reads

/-- A text that is read at the loosest level is parsed as its tree. -/
theorem parse_of_reads {text : String} {tree : Syntax}
    (h : Reads (expression text.toList.length) text.toList tree 0) : parse text = .ok tree := by
  have hread := h.disjunction (Ends.nil 0)
  have hskip := h.skipSpace_append []
  rw [List.append_nil] at hread hskip
  have htrimmed : expression (text.toList.length + 1) (skipSpace text.toList) = .ok (tree, []) := by
    rw [hskip]
    exact hread
  have hspaced : spaced (expression (text.toList.length + 1)) text.toList = .ok (tree, []) :=
    spaced_of_ok htrimmed
  have hchars : parseChars text.toList = .ok tree := by rw [parseChars, hspaced]
  rw [parse, hchars]
  rfl

end AutomationNet.Guard
