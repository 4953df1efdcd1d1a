import AutomationNet.Proofs.Guard.Closing

/-!
# Guards in parentheses

Parentheses make one operand of a guard, whatever the guard is. In them it can be negated, and
joined with another one by every operator.

* `expression_of_parse` : a guard is an expression before a closing parenthesis
* `reads_parenthesized` : a guard in parentheses is read at every level
* `operators` : how a node is written between two operands
* `reads_operator` : two operands with an operator between them
* `parse_parenthesized` : **guards that are put together from guards in parentheses are parsed as
  the trees put together**
-/

namespace AutomationNet.Guard

section
variable {s : String} {tree : Syntax} {depth : Nat}

theorem parse_eq_ok (h : parse s = .ok tree) :
    expression (s.toList.length + 1) (skipSpace s.toList) = .ok (tree, []) := by
  have hchars : parseChars s.toList = .ok tree := mapError_eq_ok.mp h
  rw [parseChars] at hchars
  split at hchars
  · rename_i hspaced
    cases hchars
    obtain ⟨after, hread, hnil⟩ := spaced_eq_ok.mp hspaced
    rw [expression_trims _ hread] at hnil
    rwa [hnil]
  · cases hchars
  · cases hchars

/-- A guard is an expression before a closing parenthesis, whatever comes after it. -/
theorem expression_of_parse (h : parse s = .ok tree) (hdepth : s.toList.length < depth)
    (rest : List Char) :
    expression depth (s.toList ++ ')' :: rest) = .ok (tree, ')' :: rest) := by
  have hclose := Closes.close rest
  refine expression_keeps hdepth hclose ⟨?_, ?_⟩ (parse_eq_ok h) (.nil 0)
  · rw [hclose.skipSpace_append, skipSpace_skipSpace]
  · rw [List.length_append]
    exact Nat.le_trans (List.length_dropWhile_le _ _) (Nat.le_add_right _ _)

theorem reads_parenthesized (h : parse s = .ok tree) (hdepth : s.toList.length < depth)
    {level : Nat} (hlevel : level ≤ 3) :
    Reads (expression depth) ('(' :: s.toList ++ [')']) tree level :=
  Reads.of_parentheses (expression_of_parse h hdepth) hlevel

end

/-- The operators between two operands, and what they make of them. -/
def operators : List (String × (Syntax → Syntax → Syntax)) :=
  [("and", .and), ("&&", .and), ("or", .or), ("||", .or), ("=", .compare .eq), ("==", .compare .eq),
    ("===", .compare .eq), ("!=", .compare .ne), ("!==", .compare .ne), ("<>", .compare .ne),
    ("<", .compare .lt), ("<=", .compare .le), (">", .compare .gt), (">=", .compare .ge)]

section
variable {nested : Parser Syntax} {left right : List Char} {leftTree rightTree : Syntax}

theorem reads_comparison {spelling : String} {op : Comparison}
    (h : (spelling.toList, op) ∈ comparisonTable) (hleft : Reads nested left leftTree 3)
    (hright : Reads nested right rightTree 3) :
    Reads nested (left ++ ' ' :: (spelling.toList ++ ' ' :: right))
      (.compare op leftTree rightTree) 0 :=
  (Reads.compare (.comparison h) hleft hright).of_le (by decide) (by decide)

theorem reads_operator {entry : String × (Syntax → Syntax → Syntax)} (h : entry ∈ operators)
    (hleft : Reads nested left leftTree 3) (hright : Reads nested right rightTree 3) :
    Reads nested (left ++ ' ' :: (entry.1.toList ++ ' ' :: right))
      (entry.2 leftTree rightTree) 0 := by
  have hleft₀ : Reads nested left leftTree 0 := hleft.of_le (by decide) (by decide)
  have hleft₁ : Reads nested left leftTree 1 := hleft.of_le (by decide) (by decide)
  have hright₁ : Reads nested right rightTree 1 := hright.of_le (by decide) (by decide)
  have hright₂ : Reads nested right rightTree 2 := hright.of_le (by decide) (by decide)
  simp only [operators, List.mem_cons, List.not_mem_nil, or_false] at h
  rcases h with rfl | rfl | rfl | rfl | hcomparison
  · have hand := Reads.and (.and_word (w := ['a', 'n', 'd']) (by decide) (by decide)) hleft₁ hright₂
    exact hand.of_le (by decide) (by decide)
  · exact (Reads.and .and_sign hleft₁ hright₂).of_le (by decide) (by decide)
  · exact Reads.or (.or_word (by decide) (by decide)) hleft₀ hright₁
  · exact Reads.or .or_sign hleft₀ hright₁
  · rcases hcomparison with rfl | rfl | rfl | rfl | rfl | rfl | rfl | rfl | rfl | rfl
    all_goals exact reads_comparison (by decide) hleft hright

end

theorem parse_of_chars {text : String} {chars : List Char} {tree : Syntax}
    (htext : text.toList = chars) (h : Reads (expression chars.length) chars tree 0) : parse text = .ok tree :=
  parse_of_reads (by rwa [htext])

/-- **Guards that are put together from guards in parentheses** are parsed as the trees put
together. -/
theorem parse_parenthesized {s s₁ s₂ : String} {t t₁ t₂ : Syntax} (h : parse s = .ok t)
    (h₁ : parse s₁ = .ok t₁) (h₂ : parse s₂ = .ok t₂) :
    parse ("(" ++ s ++ ")") = .ok t ∧
      parse ("not (" ++ s ++ ")") = .ok (.not t) ∧
      parse ("!(" ++ s ++ ")") = .ok (.not t) ∧
      ∀ entry ∈ operators,
        parse ("(" ++ s₁ ++ ") " ++ entry.1 ++ " (" ++ s₂ ++ ")") = .ok (entry.2 t₁ t₂) := by
  refine ⟨?_, ?_, ?_, fun entry hentry => ?_⟩
  · have htext : ("(" ++ s ++ ")").toList = '(' :: s.toList ++ [')'] := by simp
    refine parse_of_chars htext (reads_parenthesized h ?_ (by decide))
    simp only [List.length_append, List.length_cons]
    omega
  · have htext : ("not (" ++ s ++ ")").toList =
        ['n', 'o', 't'] ++ [' '] ++ ('(' :: s.toList ++ [')']) := by simp
    have hword : IsWord ['n', 'o', 't'] := by decide
    refine parse_of_chars htext (.of_le (.not_word hword (by decide) ?_) (by decide) (by decide))
    refine reads_parenthesized h ?_ (Nat.le_refl 3)
    simp only [List.length_append, List.length_cons]
    omega
  · have htext : ("!(" ++ s ++ ")").toList = ['!'] ++ ('(' :: s.toList ++ [')']) := by simp
    refine parse_of_chars htext (.of_le (.not_mark (by simp) ?_) (by decide) (by decide))
    refine reads_parenthesized h ?_ (Nat.le_refl 3)
    simp only [List.length_append, List.length_cons]
    omega
  · have htext : ("(" ++ s₁ ++ ") " ++ entry.1 ++ " (" ++ s₂ ++ ")").toList =
        ('(' :: s₁.toList ++ [')']) ++
          ' ' :: (entry.1.toList ++ ' ' :: ('(' :: s₂.toList ++ [')'])) := by
      simp
    refine parse_of_chars htext (reads_operator hentry (reads_parenthesized h₁ ?_ (Nat.le_refl 3))
      (reads_parenthesized h₂ ?_ (Nat.le_refl 3)))
    all_goals
      simp only [List.length_append, List.length_cons]
      omega

/-- Texts that would be read otherwise if more followed: the word `not` where it is a name, and a
call. -/
theorem dangling_parenthesized :
    parse "not" = .ok (.ident "not") ∧
      parse "not (not)" = .ok (.not (.ident "not")) ∧
      parse "(a and not(b, ')') ) <> (f())" = .ok (.compare .ne
        (.and (.ident "a") (.call "not" [.ident "b", .string ")"]))
        (.call "f" [])) := by
  have hnot : parse "not" = .ok (.ident "not") := by rfl
  have hchars : "a and not(b, ')') ".toList = ['a', ' ', 'a', 'n', 'd', ' ', 'n', 'o', 't', '(', 'b',
      ',', ' ', '\'', ')', '\'', ')', ' '] := by decide
  have hleft : parse "a and not(b, ')') " = .ok
      (.and (.ident "a") (.call "not" [.ident "b", .string ")"])) := by
    rw [parse, hchars]
    rfl
  have hright : parse "f()" = .ok (.call "f" []) := by rfl
  obtain ⟨-, hnegated, -, hjoined⟩ := parse_parenthesized hnot hleft hright
  exact ⟨hnot, hnegated, hjoined ("<>", .compare .ne) (by simp [operators])⟩

end AutomationNet.Guard
