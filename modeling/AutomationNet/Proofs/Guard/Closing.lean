import AutomationNet.Proofs.Guard.Following

/-!
# Guards before a closing parenthesis

A text that is a guard is read in the same way before a closing parenthesis. This is not so for
every text: the parsers of the grammar fall back to another alternative where one fails, and it may
succeed when more follows. But before what can follow an expression no alternative fails that would
succeed before a longer text.

* `Keeps` : an expression that can be read on after is read the same before a closing text
* `fold_keeps` : repetitions, each of which is followed by another one or by the end
* `Primary.keeps`, `unary_keeps`, `comparison_keeps`, `joined_keeps` : the levels of the grammar
* `dangling_keeps` : a word that is a name although it could negate
* `expression_keeps` : **what an expression is read as it is read as before a closing text**
-/

namespace AutomationNet.Guard

/-! ## Expressions before a closing text -/

/-- A text goes on with a closing text after another one. Blanks before them do not matter, but it
is not shorter. -/
def Prolongs (more text longer : List Char) : Prop :=
  skipSpace longer = skipSpace text ++ more ∧ text.length ≤ longer.length

theorem Closes.prolongs {more : List Char} (h : Closes more) (text : List Char) :
    Prolongs more text (text ++ more) :=
  ⟨h.skipSpace_append text, by simp⟩

/-- What a parser makes of a text that can be read on after it, another one makes of a longer text.
-/
def Keeps (level : Nat) (p p' : Parser Syntax) : Prop :=
  ∀ ⦃more text longer tree rest⦄, Closes more → Prolongs more text longer →
    p text = .ok (tree, rest) → Continues level rest → p' longer = .ok (tree, rest ++ more)

/-- A parser leaves no blanks at the beginning of what it leaves. -/
def Parser.Trims {α : Type} (p : Parser α) : Prop :=
  ∀ ⦃text a rest⦄, p text = .ok (a, rest) → skipSpace rest = rest

/-- Two parsers for what stands in parentheses, the second of which keeps what the first one reads.
-/
structure Nests (nested nested' : Parser Syntax) : Prop where
  keeps : Keeps 0 nested nested'
  self : Keeps 0 nested nested
  trims : nested.Trims
  close : ∀ {text : List Char}, (skipSpace text).head? = some ')' → nested'.Fails text

/-! ### Repetitions -/

section
variable {connective : Parser Unit} {operand operand' : Parser Syntax} {text rest : List Char}
  {tree : Syntax}

/-- A connective and an operand after it, which gives the operand. -/
def another (connective : Parser Unit) (operand : Parser Syntax) : Parser Syntax :=
  ((spaced connective).pair operand).map Prod.snd

theorem another_eq_ok : another connective operand text = .ok (tree, rest) ↔
    ∃ after, connective (skipSpace text) = .ok ((), after) ∧
      operand (skipSpace after) = .ok (tree, rest) := by
  constructor
  · intro h
    obtain ⟨⟨_, _⟩, hpair, rfl⟩ := Parser.map_eq_ok.mp h
    obtain ⟨middle, hconnective, hoperand⟩ := Parser.pair_eq_ok.mp hpair
    obtain ⟨after, hread, rfl⟩ := spaced_eq_ok.mp hconnective
    exact ⟨after, hread, hoperand⟩
  · rintro ⟨after, hread, hoperand⟩
    exact Parser.map_of_ok _ (Parser.pair_of_ok (spaced_of_ok hread) hoperand)

theorem another_fails (h : connective.Fails (skipSpace text)) :
    (another connective operand).Fails text :=
  ((spaced_fails h).pair operand).map Prod.snd

/-- Repetitions that have read something began with one of them. -/
theorem fold_start {α β : Type} {p : Parser β} {f : α → β → α} {count : Nat} {start result : α}
    (h : p.fold f count start text = (result, rest)) : rest = text ∨ p.Accepts text := by
  rcases p.accepts_or_fails text with haccepts | hfails
  · exact .inr haccepts
  · rw [Parser.fold_of_fails hfails] at h
    cases h
    exact .inl rfl

variable {β : Type} {f : β → Syntax → β} {level count count' : Nat} {more : List Char}
  {start result : β}

/-- Every operand before the last one can be read on, because a connective follows it. -/
theorem fold_keeps (hconnective : connective.Steady)
    (hnext : ∀ {rest : List Char}, connective.Accepts (skipSpace rest) → Continues level rest)
    (hoperand : Keeps level operand operand') (hmore : Closes more) (hcount : count ≤ count')
    (h : (another connective operand).fold f count start text = (result, rest))
    (hrest : Continues level rest) (hend : connective.Fails (skipSpace rest)) :
    (another connective operand').fold f count' start (text ++ more) = (result, rest ++ more) := by
  have hfinished : (another connective operand').Fails (rest ++ more) := by
    refine another_fails ?_
    rw [hmore.skipSpace_append]
    exact hconnective.fails hmore hend
  -- The longer text allows at least as many repetitions. After as many as there were, none can follow.
  induction count generalizing count' start text with
  | zero =>
    cases h
    exact Parser.fold_of_fails hfinished _ _
  | succ count ih =>
    obtain ⟨count', rfl⟩ := Nat.exists_eq_add_of_le' (Nat.le_trans (Nat.le_add_left 1 count) hcount)
    rcases (another connective operand).accepts_or_fails text with ⟨tree, middle, hok⟩ | hfails
    · rw [Parser.fold_of_ok hok] at h
      obtain ⟨after, hread, hoperand'⟩ := another_eq_ok.mp hok
      have hmiddle : Continues level middle := by
        rcases fold_start h with rfl | ⟨_, _, hanother⟩
        · exact hrest
        · obtain ⟨after, hread, -⟩ := another_eq_ok.mp hanother
          exact hnext ⟨_, _, hread⟩
      have hread' : connective (skipSpace (text ++ more)) = .ok ((), after ++ more) := by
        rw [hmore.skipSpace_append]
        exact hconnective.ok hmore hread
      have hprolongs : Prolongs more (skipSpace after) (skipSpace (after ++ more)) := by
        rw [hmore.skipSpace_append]
        exact hmore.prolongs _
      have hok' : another connective operand' (text ++ more) = .ok (tree, middle ++ more) :=
        another_eq_ok.mpr ⟨_, hread', hoperand hmore hprolongs hoperand' hmiddle⟩
      rw [Parser.fold_of_ok hok']
      exact ih (Nat.le_of_succ_le_succ hcount) h
    · rw [Parser.fold_of_fails hfails] at h
      cases h
      exact Parser.fold_of_fails hfinished _ _

theorem fold_trims (htrims : operand.Trims)
    (h : (another connective operand).fold f count start text = (result, rest))
    (htext : skipSpace text = text) : skipSpace rest = rest := by
  induction count generalizing start text with
  | zero =>
    cases h
    exact htext
  | succ count ih =>
    rcases (another connective operand).accepts_or_fails text with ⟨tree, middle, hok⟩ | hfails
    · rw [Parser.fold_of_ok hok] at h
      obtain ⟨after, -, hread⟩ := another_eq_ok.mp hok
      exact ih h (htrims hread)
    · rw [Parser.fold_of_fails hfails] at h
      cases h
      exact htext

end

/-! ### Primary expressions -/

section
variable {nested nested' : Parser Syntax} {more text rest closing after : List Char} {tree : Syntax}
  {args : List Syntax}

theorem arguments_of_fails (h : nested.Fails text) : arguments nested text = ([], text) := by
  obtain ⟨stop, hstop⟩ := h
  rw [arguments, hstop]

theorem arguments_of_ok {first : Syntax} (h : nested text = .ok (first, rest)) :
    arguments nested text = (another (literal [',']) nested).fold (fun args arg => args ++ [arg])
      text.length [first] rest := by
  rw [arguments, h]
  rfl

/-- Arguments before a closing parenthesis are none, or a first one and the comma or parenthesis. -/
theorem arguments_cases (h : arguments nested text = (args, closing))
    (hclosing : skipSpace closing = ')' :: after) :
    (nested.Fails text ∧ closing = text) ∨
      ∃ first rest c cs, nested text = .ok (first, rest) ∧ skipSpace rest = c :: cs ∧
        (c = ')' ∨ c = ',') := by
  rcases nested.accepts_or_fails text with ⟨first, rest, hok⟩ | hfails
  · rw [arguments_of_ok hok] at h
    rcases fold_start h with rfl | ⟨_, _, hanother⟩
    · exact .inr ⟨first, closing, ')', after, hok, hclosing, .inl rfl⟩
    · obtain ⟨more, hread, -⟩ := another_eq_ok.mp hanother
      exact .inr ⟨first, rest, ',', more, hok, literal_eq_ok.mp hread, .inr rfl⟩
  · rw [arguments_of_fails hfails] at h
    cases h
    exact .inl ⟨hfails, rfl⟩

theorem Continues.of_delimiter {c : Char} {cs : List Char} (hrest : skipSpace rest = c :: cs)
    (hc : c = ')' ∨ c = ',') : Continues 0 rest := by
  rcases hc with rfl | rfl
  · exact .of_head hrest (by decide) (by decide)
  · exact .of_head hrest (by decide) (by decide)

theorem arguments_keeps (hnests : Nests nested nested') (hmore : Closes more)
    (h : arguments nested text = (args, closing)) (hclosing : skipSpace closing = ')' :: after) :
    arguments nested' (text ++ more) = (args, closing ++ more) := by
  rcases arguments_cases h hclosing with ⟨hfails, rfl⟩ | ⟨first, rest, c, cs, hok, hrest, hc⟩
  · have hfails' : nested'.Fails (closing ++ more) := by
      refine hnests.close ?_
      rw [hmore.skipSpace_append, hclosing]
      rfl
    rw [arguments_of_fails hfails] at h
    cases h
    exact arguments_of_fails hfails'
  · have hok' := hnests.keeps hmore (hmore.prolongs text) hok (.of_delimiter hrest hc)
    rw [arguments_of_ok hok] at h
    rw [arguments_of_ok hok']
    refine fold_keeps (literal_steady (by decide)) ?_ hnests.keeps hmore (by simp) h
      (.of_delimiter hclosing (.inl rfl)) ?_
    · rintro rest ⟨_, after, hread⟩
      exact .of_delimiter (literal_eq_ok.mp hread) (.inr rfl)
    · rw [hclosing]
      exact literal_fails (by simp)

theorem call_keeps (hnests : Nests nested nested') (hmore : Closes more)
    (h : call nested text = .ok (tree, rest)) :
    call nested' (text ++ more) = .ok (tree, rest ++ more) := by
  obtain ⟨w, opening, inside, args, closing, after, hw, rfl, hends, hopen, hargs, hclose, rfl,
    rfl⟩ := call_eq_ok.mp h
  refine call_eq_ok.mpr ⟨w, opening ++ more, inside ++ more, args, closing ++ more, after ++ more,
    hw, List.append_assoc _ _ _, hends.append hmore, ?_, ?_, ?_, rfl, ?_⟩
  · rw [hmore.skipSpace_append, hopen, List.cons_append]
  · rw [hmore.skipSpace_append]
    exact arguments_keeps hnests hmore hargs hclose
  · rw [hmore.skipSpace_append, hclose, List.cons_append]
  · rw [hmore.skipSpace_append]

theorem quotedBy_append {quote : Char} (h : quotedBy quote text = .ok (tree, rest))
    (more : List Char) : quotedBy quote (text ++ more) = .ok (tree, rest ++ more) := by
  cases text with
  | nil => cases h
  | cons c cs =>
    rw [quotedBy] at h
    rw [List.cons_append, quotedBy]
    split at h
    · rename_i hquote
      rw [if_pos hquote]
      split at h
      · rename_i d inside hinside
        cases h
        have hlength : (cs.takeWhile (· ≠ quote)).length ≠ cs.length := by
          intro hall
          have hsplit : cs.takeWhile (· ≠ quote) ++ cs.dropWhile (· ≠ quote) = cs :=
            List.takeWhile_append_dropWhile
          have hlengths := congrArg List.length hsplit
          rw [List.length_append, hall, hinside, List.length_cons] at hlengths
          omega
        rw [List.dropWhile_append, List.takeWhile_append, if_neg hlength, hinside]
        rfl
      · cases h
    · cases h

theorem stringLiteral_append (h : stringLiteral text = .ok (tree, rest)) (more : List Char) :
    stringLiteral (text ++ more) = .ok (tree, rest ++ more) := by
  rcases Parser.orElse_eq_ok.mp h with hsingle | ⟨hfails, hdouble⟩
  · exact Parser.orElse_of_ok (quotedBy_append hsingle more)
  · obtain ⟨c, cs, rfl, hquote⟩ := head_of_stringLiteral h
    have hquoted : c = '"' := by
      rcases hquote with rfl | rfl
      · have hnot : (quotedBy '"').Fails ('\'' :: cs) := quotedBy_fails (by decide)
        exact absurd hnot (Parser.Accepts.not_fails ⟨_, _, hdouble⟩)
      · rfl
    subst hquoted
    have hsingle : (quotedBy '\'').Fails ('"' :: cs ++ more) := quotedBy_fails (by decide)
    rw [stringLiteral, Parser.orElse_of_fails hsingle]
    exact quotedBy_append hdouble more

theorem Primary.keeps (hnests : Nests nested nested') (hmore : Closes more)
    (h : Primary nested text tree rest) (hrest : Continues 3 rest) :
    Primary nested' (text ++ more) tree (rest ++ more) := by
  cases h with
  | number h =>
    refine .number (number_append h (hmore.wordEnds) fun hpoint => ?_)
    exact absurd (hmore '.' hpoint) (by decide)
  | string h => exact .string (stringLiteral_append h more)
  | bool value hw hends h =>
    rw [List.append_assoc]
    exact .bool value hw (hends.append hmore) h
  | call hw hends htrue hfalse h =>
    rw [List.append_assoc]
    refine .call hw (hends.append hmore) htrue hfalse ?_
    rw [← List.append_assoc]
    exact call_keeps hnests hmore h
  | ident hw hends htrue hfalse hcall =>
    rw [List.append_assoc]
    exact .ident hw (hends.append hmore) htrue hfalse
      (call_fails_append hw (hends.append hmore) (hrest.head_ne_open hmore))
  | parenthesized h =>
    exact .parenthesized (hnests.keeps hmore (hmore.prolongs _) h (.close _))

theorem primary_keeps (hnests : Nests nested nested') :
    Keeps 3 (primary nested) (primary nested') := by
  intro more text longer tree rest hmore hlonger h hrest
  obtain ⟨after, hprimary, rfl⟩ := primary_eq_ok.mp h
  refine primary_eq_ok.mpr ⟨after ++ more, ?_, (hmore.skipSpace_append after).symm⟩
  rw [hlonger.1]
  exact hprimary.keeps hnests hmore hrest.of_skipSpace

theorem primary_trims (nested : Parser Syntax) : (primary nested).Trims := by
  intro text tree rest h
  obtain ⟨after, -, rfl⟩ := primary_eq_ok.mp h
  exact skipSpace_skipSpace after

end

/-! ### Negations -/

section
variable {nested nested' : Parser Syntax} {more text rest inner inside : List Char} {tree : Syntax}
  {count count' : Nat}

theorem pair_fails_of_right {α β : Type} {p : Parser α} {q : Parser β} {a : α}
    (hp : p text = .ok (a, rest)) (hq : q.Fails rest) : (p.pair q).Fails text := by
  obtain ⟨stop, hstop⟩ := hq
  exact ⟨stop, by simp only [Parser.pair, hp, hstop]⟩

/-- What looks like a negation is none where it has nothing to negate. -/
theorem unary_of_dangling (hnot : notOperator (skipSpace text) = .ok ((), inner))
    (hinner : (unary nested count).Fails inner) :
    unary nested (count + 1) text = primary nested text := by
  have hinner' : (unary nested count).Fails (skipSpace inner) := by
    rwa [Parser.Fails, unary_skipSpace]
  exact Parser.orElse_of_fails ((pair_fails_of_right (spaced_of_ok hnot) hinner').map _)

/-- An operand that begins with a parenthesis is what stands in it. -/
theorem unary_open_fails (htext : skipSpace text = '(' :: inside) :
    (unary nested count).Fails text ↔ ∀ tree rest, nested inside ≠ .ok (tree, ')' :: rest) := by
  have hnot : notOperator.Fails (skipSpace text) := by
    rw [htext]
    exact notOperator_fails_of_head (by decide) (by decide)
  rw [Parser.Fails, unary_of_primary hnot]
  constructor
  · intro hfails tree rest hok
    refine Parser.Accepts.not_fails ⟨tree, skipSpace rest, ?_⟩ hfails
    refine primary_eq_ok.mpr ⟨rest, ?_, rfl⟩
    rw [htext]
    exact .parenthesized hok
  · intro hne
    rcases (primary nested).accepts_or_fails text with ⟨tree, rest, hok⟩ | hfails
    · obtain ⟨after, hprimary, -⟩ := primary_eq_ok.mp hok
      have hopen := hprimary.alternatives
      rw [htext, alternatives_sign (by decide) (by decide) (by decide) (by decide) (by decide)]
        at hopen
      obtain ⟨_, heq, hnested⟩ := parenthesized_eq_ok.mp hopen
      cases heq
      exact absurd hnested (hne _ _)
    · exact hfails

theorem word_unique {w w' rest' : List Char} (hw : IsWord w) (hrest : WordEnds rest)
    (hw' : IsWord w') (hrest' : WordEnds rest') (h : w ++ rest = w' ++ rest') :
    w = w' ∧ rest = rest' := by
  have hword := word_append hw hrest
  rw [h, word_append hw' hrest'] at hword
  cases hword
  exact ⟨rfl, rfl⟩

/-- A call that is no negation has no argument or more than one, so it is none before a longer text.
-/
theorem call_not_negation (hnests : Nests nested nested') (hmore : Closes more) {w : List Char}
    (hw : IsWord w) (hinner : WordEnds inner) (hcall : call nested (w ++ inner) = .ok (tree, rest))
    (hfails : (unary nested count).Fails inner) :
    (unary nested' count').Fails (inner ++ more) := by
  obtain ⟨w', opening, inside, args, closing, after, hw', heq, hends, hopen, hargs, hclose, -, -⟩ :=
    call_eq_ok.mp hcall
  obtain ⟨rfl, rfl⟩ := word_unique hw hinner hw' hends heq
  have hne := (unary_open_fails hopen).mp hfails
  have hopen' : skipSpace (inner ++ more) = '(' :: (inside ++ more) := by
    rw [hmore.skipSpace_append, hopen, List.cons_append]
  refine (unary_open_fails hopen').mpr fun tree' rest' hok' => ?_
  rcases arguments_cases hargs hclose with ⟨-, rfl⟩ | ⟨first, left, c, cs, hok, hleft, hc⟩
  · -- No argument: a parenthesis that is closed at once holds no expression.
    have hfails' : nested'.Fails (inside ++ more) := by
      refine hnests.close ?_
      rw [skipSpace_skipSpace] at hclose
      rw [hmore.skipSpace_append, hclose]
      rfl
    exact Parser.Accepts.not_fails ⟨_, _, hok'⟩ hfails'
  · have hcontinues := Continues.of_delimiter hleft hc
    rw [hnests.trims hok] at hleft
    subst hleft
    have hblanks : ∀ {more : List Char}, Closes more →
        Prolongs more (skipSpace inside) (inside ++ more) := by
      intro more hmore
      refine ⟨by rw [hmore.skipSpace_append, skipSpace_skipSpace], ?_⟩
      rw [List.length_append]
      exact Nat.le_trans (List.length_dropWhile_le _ _) (Nat.le_add_right _ _)
    rcases hc with rfl | rfl
    · -- One argument is what a negation would have negated.
      have hself := hnests.self Closes.nil (hblanks Closes.nil) hok hcontinues
      rw [List.append_nil, List.append_nil] at hself
      exact hne _ _ hself
    · have hkept := hnests.keeps hmore (hblanks hmore) hok hcontinues
      cases hok'.symm.trans hkept

/-- A word that is a name although it could negate stands before what is no operand, and so it does
before a longer text. -/
theorem ident_not_negation (hmore : Closes more) (hrest : Continues 3 inner)
    (hfails : (unary nested count).Fails inner) :
    (unary nested' count').Fails (inner ++ more) := by
  rcases hrest.word_or_sign hmore with ⟨w, after, hw, htext, hafter⟩ | ⟨hhead, hnot⟩
  · rw [Parser.Fails, ← unary_skipSpace, htext] at hfails
    exact absurd hfails (unary_accepts_word hw hafter count).not_fails
  · rw [← hmore.skipSpace_append] at hhead hnot
    exact unary_fails_of_head hhead hnot count'

/-- What is read as a primary expression because nothing follows to negate stays one. -/
theorem dangling_keeps (hnests : Nests nested nested') (hmore : Closes more)
    (hnot : notOperator (skipSpace text) = .ok ((), inner))
    (hfails : (unary nested count).Fails inner) (h : primary nested text = .ok (tree, rest))
    (hrest : Continues 3 rest) : (unary nested' count').Fails (inner ++ more) := by
  obtain ⟨after, hprimary, rfl⟩ := primary_eq_ok.mp h
  have halternatives := hprimary.alternatives
  rcases notOperator_eq_ok.mp hnot with ⟨w, hw, htext, hinner, hname⟩ | ⟨htext, -⟩
  · rw [htext, alternatives_word hw hinner (by rw [hname]; decide) (by rw [hname]; decide)]
      at halternatives
    rcases Parser.orElse_eq_ok.mp halternatives with hcall | ⟨-, halternatives⟩
    · exact call_not_negation hnests hmore hw hinner hcall hfails
    · have hident : Guard.ident (w ++ inner) = .ok (.ident (String.ofList w), inner) :=
        Parser.map_of_ok _ (word_append hw hinner)
      rw [Parser.orElse_of_ok hident] at halternatives
      cases halternatives
      exact ident_not_negation hmore hrest.of_skipSpace hfails
  · have hmark : (primary nested).Fails text := by
      refine primary_fails_of_head ?_
      rw [htext]
      rintro c ⟨⟩
      decide
    exact absurd hmark (Parser.Accepts.not_fails ⟨_, _, h⟩)

theorem length_of_notOperator (h : notOperator text = .ok ((), inner)) :
    inner.length < text.length := by
  rcases notOperator_eq_ok.mp h with ⟨w, hw, rfl, -, -⟩ | ⟨rfl, -⟩
  · obtain ⟨c, cs, rfl, -⟩ := hw.head
    rw [List.length_append, List.length_cons]
    omega
  · simp

/-- An operand is read the same before a closing text, if enough negations are allowed. -/
theorem unary_keeps (hnests : Nests nested nested') (hmore : Closes more) {longer : List Char}
    (hlonger : skipSpace longer = skipSpace text ++ more)
    (hlength : (skipSpace text).length ≤ count) (hcount : count ≤ count') (h : unary nested count text = .ok (tree, rest))
    (hrest : Continues 3 rest) : unary nested' count' longer = .ok (tree, rest ++ more) := by
  -- A negation takes a character at least, so that there is no text left when no more are allowed.
  induction count generalizing count' text longer tree with
  | zero =>
    have hnil : skipSpace text = [] := List.length_eq_zero_iff.mp (Nat.le_zero.mp hlength)
    have hfails : (primary nested).Fails text := by
      refine primary_fails_of_head ?_
      rw [hnil]
      exact nofun
    exact absurd hfails (Parser.Accepts.not_fails ⟨_, _, h⟩)
  | succ count ih =>
    obtain ⟨count', rfl⟩ := Nat.exists_eq_add_of_le' (Nat.le_trans (Nat.le_add_left 1 count) hcount)
    rcases unary_eq_ok h with ⟨inner, negated, hnot, hinner, rfl⟩ | ⟨hnot, hprimary⟩
    · have hnot' : notOperator (skipSpace longer) = .ok ((), inner ++ more) := by
        rw [hlonger]
        exact notOperator_steady.ok hmore hnot
      have hshorter : (skipSpace inner).length ≤ count := by
        have hlt := length_of_notOperator hnot
        have hle : (skipSpace inner).length ≤ inner.length := List.length_dropWhile_le _ _
        omega
      exact unary_not hnot' (ih (hmore.skipSpace_append inner) hshorter
        (Nat.le_of_succ_le_succ hcount) hinner)
    · have hprimary' : primary nested' longer = .ok (tree, rest ++ more) := by
        rw [← primary_skipSpace, hlonger]
        rw [← primary_skipSpace] at hprimary
        exact primary_keeps hnests hmore (hmore.prolongs _) hprimary hrest
      rcases hnot with hnot | ⟨inner, hnot, hinner⟩
      · rw [unary_of_primary, hprimary']
        rw [hlonger]
        exact notOperator_steady.fails hmore hnot
      · have hnot' : notOperator (skipSpace longer) = .ok ((), inner ++ more) := by
          rw [hlonger]
          exact notOperator_steady.ok hmore hnot
        rw [unary_of_dangling hnot' (dangling_keeps hnests hmore hnot hinner hprimary hrest),
          hprimary']

theorem unary_trims (nested : Parser Syntax) (count : Nat) : (unary nested count).Trims := by
  intro text tree rest h
  induction count generalizing text tree with
  | zero => exact primary_trims nested h
  | succ count ih =>
    rcases unary_eq_ok h with ⟨inner, negated, -, hinner, -⟩ | ⟨-, hprimary⟩
    · exact ih hinner
    · exact primary_trims nested hprimary

end

/-! ### Comparisons and connectives -/

section
variable {nested nested' : Parser Syntax} {level lower : Nat} {connective : Parser Unit}
  {join : Syntax → Syntax → Syntax} {operand operand' : Parser Syntax}

theorem operand_keeps (hnests : Nests nested nested') :
    Keeps 3 (fun text => unary nested text.length text)
      fun text => unary nested' text.length text := by
  intro more text longer tree rest hmore hlonger h hrest
  exact unary_keeps hnests hmore hlonger.1 (List.length_dropWhile_le _ _) hlonger.2 h hrest

theorem comparison_keeps (hnests : Nests nested nested') :
    Keeps 2 (comparison nested) (comparison nested') := by
  intro more text longer tree rest hmore hlonger h hrest
  obtain ⟨left, middle, hleft, ⟨op, after, right, hop, hright, rfl⟩ | ⟨rfl, rfl⟩⟩ :=
    comparison_eq_ok h
  · have hmiddle : Continues 3 middle := .of_comparisonOperator ⟨_, _, hop⟩
    have hop' : comparisonOperator (skipSpace (middle ++ more)) = .ok (op, after ++ more) := by
      rw [hmore.skipSpace_append]
      exact comparisonOperator_steady.ok hmore hop
    refine comparison_of_operator (operand_keeps hnests hmore hlonger hleft hmiddle) hop' ?_
    rw [hmore.skipSpace_append]
    exact operand_keeps hnests hmore (hmore.prolongs _) hright (hrest.mono (by decide))
  · have hleft' := operand_keeps hnests hmore hlonger hleft (hrest.mono (by decide))
    refine comparison_of_unary hleft' ?_
    rw [hmore.skipSpace_append]
    exact comparisonOperator_steady.fails hmore hrest.comparison_fails

theorem comparison_trims (nested : Parser Syntax) : (comparison nested).Trims := by
  intro text tree rest h
  obtain ⟨left, middle, hleft, ⟨op, after, right, -, hright, -⟩ | ⟨-, rfl⟩⟩ := comparison_eq_ok h
  · exact unary_trims nested _ hright
  · exact unary_trims nested _ hleft

theorem joined_eq_ok {text rest : List Char} {tree : Syntax}
    (h : joined connective join operand text = .ok (tree, rest)) :
    ∃ first start, operand text = .ok (first, start) ∧
      (another connective operand).fold join text.length first start = (tree, rest) := by
  simp only [joined] at h
  split at h
  · cases h
  · rename_i first start hfirst
    exact ⟨first, start, hfirst, Except.ok.inj h⟩

theorem joined_of_fold {text rest start : List Char} {first tree : Syntax}
    (hfirst : operand text = .ok (first, start))
    (h : (another connective operand).fold join text.length first start = (tree, rest)) :
    joined connective join operand text = .ok (tree, rest) := by
  simp only [joined, hfirst]
  exact congrArg Except.ok h

/-- Operands with a connective between them are read the same before a closing text, if each of them
is, and if the connective is what only they are followed by. -/
theorem joined_keeps (hconnective : connective.Steady)
    (hnext : ∀ {rest : List Char}, connective.Accepts (skipSpace rest) → Continues level rest)
    (hend : ∀ {rest : List Char}, Continues lower rest → connective.Fails (skipSpace rest))
    (hlevel : lower ≤ level) (hoperand : Keeps level operand operand') :
    Keeps lower (joined connective join operand) (joined connective join operand') := by
  intro more text longer tree rest hmore hlonger h hrest
  obtain ⟨first, start, hfirst, hfold⟩ := joined_eq_ok h
  have hstart : Continues level start := by
    rcases fold_start hfold with rfl | ⟨_, _, hanother⟩
    · exact hrest.mono hlevel
    · obtain ⟨after, hread, -⟩ := another_eq_ok.mp hanother
      exact hnext ⟨_, _, hread⟩
  exact joined_of_fold (hoperand hmore hlonger hfirst hstart) (fold_keeps hconnective hnext hoperand
    hmore hlonger.2 hfold (hrest.mono hlevel) (hend hrest))

theorem joined_trims (htrims : operand.Trims) : (joined connective join operand).Trims := by
  intro text tree rest h
  obtain ⟨first, start, hfirst, hfold⟩ := joined_eq_ok h
  exact fold_trims htrims hfold (htrims hfirst)

theorem joined_fails {text : List Char} (h : operand.Fails text) :
    (joined connective join operand).Fails text := by
  obtain ⟨stop, hstop⟩ := h
  exact ⟨stop, by rw [joined, hstop]⟩

end

/-! ### Expressions -/

theorem disjunction_keeps {nested nested' : Parser Syntax} (hnests : Nests nested nested') :
    Keeps 0 (disjunction nested) (disjunction nested') := by
  rw [disjunction_eq, disjunction_eq, conjunction_eq, conjunction_eq]
  exact joined_keeps orOperator_steady .of_orOperator Continues.or_fails (by decide)
    (joined_keeps andOperator_steady .of_andOperator Continues.and_fails (by decide)
      (comparison_keeps hnests))

theorem expression_trims (depth : Nat) : (expression depth).Trims := by
  cases depth with
  | zero => exact nofun
  | succ depth => exact joined_trims (joined_trims (comparison_trims _))

theorem expression_close (depth : Nat) {text : List Char} (h : (skipSpace text).head? = some ')') :
    (expression depth).Fails text := by
  cases depth with
  | zero => exact ⟨text, rfl⟩
  | succ depth =>
    obtain ⟨cs, hcs⟩ := List.head?_eq_some_iff.mp h
    have hunary : (unary (expression depth) text.length).Fails text := by
      refine unary_fails_of_head ?_ ?_ _
      · rw [hcs]
        rintro c ⟨⟩
        decide
      · rw [hcs]
        exact notOperator_fails_of_head (by decide) (by decide)
    obtain ⟨stop, hstop⟩ := hunary
    exact joined_fails (joined_fails ⟨stop, by simp only [comparison, hstop]⟩)

/-- **What an expression is read as it is read as before a closing text**, too, where parentheses
may be nested as deep or deeper. -/
theorem expression_keeps {depth depth' : Nat} (hdepth : depth ≤ depth') :
    Keeps 0 (expression depth) (expression depth') := by
  -- Used twice for what stands in parentheses: against the deeper parser, and against itself for the
  -- argument of a word that could negate it.
  induction depth generalizing depth' with
  | zero => exact fun _ _ _ _ _ _ _ h => nomatch h
  | succ depth ih =>
    obtain ⟨depth', rfl⟩ := Nat.exists_eq_add_of_le' (Nat.le_trans (Nat.le_add_left 1 depth) hdepth)
    exact disjunction_keeps ⟨ih (Nat.le_of_succ_le_succ hdepth), ih (Nat.le_refl depth),
      expression_trims depth, expression_close depth'⟩

end AutomationNet.Guard
