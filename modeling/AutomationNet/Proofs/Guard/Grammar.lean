import AutomationNet.Guard.Parser
import AutomationNet.Proofs.Scanning

/-!
# How the guard grammar reads

The parsers of the grammar try their alternatives in order. What each of them makes of a text is told
by the beginning of the text and by what follows it: a word ends where no further character of a word
comes, an operand stands alone unless an operator follows.

* `Parser.Fails` : a parser does not accept a text
* `IsWord`, `WordEnds` : a word, and a text before which a word ends
* `word_append`, `keyword_append`, `number_append` : what stands before the end of a word is read
* `unary_of_primary`, `unary_not` : without and with a negation
* `comparison_of_unary`, `comparison_of_operator` : without and with a comparison
* `Joins` : an operand and some repetitions have been read as one tree
* `Joins.of_operand`, `Joins.next`, `Joins.joined` : **a chain of operands is grouped to the left**
-/

namespace AutomationNet.Guard

namespace Parser

variable {α β : Type} {p q : Parser α} {r : Parser β} {text rest : List Char} {a : α} {b : β}

/-- A parser does not accept a text. -/
def Fails (p : Parser α) (text : List Char) : Prop := ∃ stop, p text = .error stop

theorem orElse_of_ok (h : p text = .ok (a, rest)) : orElse p q text = .ok (a, rest) := by
  rw [orElse, h]

theorem orElse_of_fails (h : p.Fails text) : orElse p q text = q text := by
  obtain ⟨stop, hstop⟩ := h
  rw [orElse, hstop]

theorem Fails.orElse (hp : p.Fails text) (hq : q.Fails text) : (orElse p q).Fails text := by
  obtain ⟨stop, hstop⟩ := hq
  exact ⟨stop, (orElse_of_fails hp).trans hstop⟩

theorem map_of_ok (f : α → β) (h : p text = .ok (a, rest)) : p.map f text = .ok (f a, rest) := by
  rw [map, h]

theorem Fails.map (f : α → β) (h : p.Fails text) : (p.map f).Fails text := by
  obtain ⟨stop, hstop⟩ := h
  exact ⟨stop, by rw [Parser.map, hstop]⟩

theorem pair_of_ok {middle : List Char} (hp : p text = .ok (a, middle))
    (hr : r middle = .ok (b, rest)) : pair p r text = .ok ((a, b), rest) := by
  rw [pair, hp]
  simp only [hr]

theorem Fails.pair (h : p.Fails text) (r : Parser β) : (pair p r).Fails text := by
  obtain ⟨stop, hstop⟩ := h
  exact ⟨stop, by rw [Parser.pair, hstop]⟩

theorem fold_of_ok {f : β → α → β} (h : p text = .ok (a, rest)) (count : Nat) (start : β) :
    p.fold f (count + 1) start text = p.fold f count (f start a) rest := by
  rw [fold, h]

theorem fold_of_fails {f : β → α → β} (h : p.Fails text) (count : Nat) (start : β) :
    p.fold f count start text = (start, text) := by
  obtain ⟨stop, hstop⟩ := h
  cases count with
  | zero => rfl
  | succ count => rw [fold, hstop]

end Parser

/-! ## Blanks -/

section
variable {α : Type} {p : Parser α} {text rest : List Char}

theorem skipSpace_cons {c : Char} (h : isSpace c = false) : skipSpace (c :: rest) = c :: rest :=
  List.dropWhile_cons_of_neg (by simp [h])

theorem skipSpace_skipSpace (text : List Char) : skipSpace (skipSpace text) = skipSpace text :=
  List.dropWhile_idempotent isSpace text

theorem spaced_of_ok {a : α} (h : p (skipSpace text) = .ok (a, rest)) :
    spaced p text = .ok (a, skipSpace rest) := by
  rw [spaced, h]

theorem spaced_fails (h : p.Fails (skipSpace text)) : (spaced p).Fails text := by
  obtain ⟨stop, hstop⟩ := h
  exact ⟨stop, by rw [spaced, hstop]⟩

theorem spaced_skipSpace (p : Parser α) (text : List Char) :
    spaced p (skipSpace text) = spaced p text := by
  rw [spaced, spaced, skipSpace_skipSpace]

end

/-! ## Words -/

/-- A letter or underscore and then letters, digits and underscores. -/
def IsWord : List Char → Prop
  | [] => False
  | c :: rest => isLetter c = true ∧ rest.all isWordChar = true

instance : DecidablePred IsWord
  | [] => .isFalse id
  | c :: rest => inferInstanceAs (Decidable (isLetter c = true ∧ rest.all isWordChar = true))

/-- A text before which a word ends. -/
def WordEnds (rest : List Char) : Prop := ∀ c ∈ rest.head?, isWordChar c = false

section
variable {w rest text expected : List Char}

theorem word_append (hw : IsWord w) (hrest : WordEnds rest) : word (w ++ rest) = .ok (w, rest) := by
  cases w with
  | nil => exact hw.elim
  | cons c cs =>
    obtain ⟨hc, hcs⟩ := hw
    have hall := List.all_eq_true.mp hcs
    rw [List.cons_append, word, if_pos hc, takeWhile_append hall hrest, dropWhile_append hall hrest]

theorem word_fails (h : ∀ c ∈ text.head?, isLetter c = false) : word.Fails text := by
  cases text with
  | nil => exact ⟨[], rfl⟩
  | cons c rest => exact ⟨c :: rest, by simp [word, h c rfl]⟩

theorem keyword_append (hw : IsWord w) (hrest : WordEnds rest)
    (h : w.map Char.toLower = expected) : keyword expected (w ++ rest) = .ok ((), rest) := by
  rw [keyword, word_append hw hrest]
  exact if_pos h

theorem keyword_fails_of_ne (hw : IsWord w) (hrest : WordEnds rest)
    (h : w.map Char.toLower ≠ expected) : (keyword expected).Fails (w ++ rest) := by
  refine ⟨w ++ rest, ?_⟩
  rw [keyword, word_append hw hrest]
  exact if_neg h

theorem keyword_fails_of_head (h : ∀ c ∈ text.head?, isLetter c = false) :
    (keyword expected).Fails text := by
  obtain ⟨stop, hstop⟩ := word_fails h
  exact ⟨stop, by rw [keyword, hstop]⟩

end

/-! ### Characters -/

section
variable {c d : Char}

theorem ne_of_isLetter (hc : isLetter c = true) (hd : isLetter d = false) : c ≠ d := by
  rintro rfl
  exact Bool.false_ne_true (hd.symm.trans hc)

theorem isSpace_of_isLetter (hc : isLetter c = true) : isSpace c = false := by
  have hne : ∀ d, isLetter d = false → c ≠ d := fun d => ne_of_isLetter hc
  simp [isSpace, hne ' ' (by decide), hne '\t' (by decide), hne '\r' (by decide),
    hne '\n' (by decide)]

theorem isDigit_of_isLetter (hc : isLetter c = true) : c.isDigit = false := by
  rw [isLetter, Bool.or_eq_true, decide_eq_true_eq] at hc
  rcases hc with hc | rfl
  · have hfrom : 65 ≤ c.toNat := by
      rcases (Bool.or_eq_true _ _).mp hc with hupper | hlower
      · exact (of_decide_eq_true hupper).1
      · have hfrom : 97 ≤ c.toNat := of_decide_eq_true ((Bool.and_eq_true _ _).mp hlower).1
        omega
    cases hdigit : c.isDigit with
    | false => rfl
    | true =>
      have hto : c.toNat ≤ 57 := of_decide_eq_true ((Bool.and_eq_true _ _).mp hdigit).2
      omega
  · decide

theorem isLetter_of_isDigit (hc : c.isDigit = true) : isLetter c = false := by
  cases hletter : isLetter c with
  | false => rfl
  | true => exact absurd ((isDigit_of_isLetter hletter).symm.trans hc) Bool.false_ne_true

theorem isSpace_of_isDigit (hc : c.isDigit = true) : isSpace c = false := by
  have hne : ∀ d : Char, d.isDigit = false → c ≠ d := by
    rintro d hd rfl
    exact Bool.false_ne_true (hd.symm.trans hc)
  simp [isSpace, hne ' ' (by decide), hne '\t' (by decide), hne '\r' (by decide),
    hne '\n' (by decide)]

theorem IsWord.head?_append_ne {w rest : List Char} (hw : IsWord w) (hd : isLetter d = false) :
    (w ++ rest).head? ≠ some d := by
  cases w with
  | nil => exact hw.elim
  | cons c cs => exact fun heq => ne_of_isLetter hw.1 hd (Option.some.inj heq)

theorem IsWord.head {w : List Char} (hw : IsWord w) : ∃ c cs, w = c :: cs ∧ isLetter c = true := by
  cases w with
  | nil => exact hw.elim
  | cons c cs => exact ⟨c, cs, rfl, hw.1⟩

end

/-! ## Numbers -/

section
variable {text rest : List Char} {c : Char}

theorem numberParts?_eq_none (hminus : c ≠ '-') (hdigit : c.isDigit = false) :
    numberParts? (c :: rest) = none := by
  unfold numberParts?
  split
  · rename_i heq
    split at heq
    · rename_i hcons
      cases hcons
      exact absurd rfl hminus
    · cases heq
      simp [hdigit]

theorem number_fails (hminus : c ≠ '-') (hdigit : c.isDigit = false) :
    number.Fails (c :: rest) :=
  ⟨c :: rest, by rw [number, numberParts?_eq_none hminus hdigit]⟩

theorem number_fails_of_isLetter (h : isLetter c = true) : number.Fails (c :: rest) :=
  number_fails (ne_of_isLetter h (by decide)) (isDigit_of_isLetter h)

def unsignedParts? (negative : Bool) (unsigned : List Char) :
    Option (Bool × List Char × List Char × List Char) :=
  let whole := unsigned.takeWhile Char.isDigit
  let rest := unsigned.dropWhile Char.isDigit
  if whole.isEmpty then none
  else
    match rest with
    | '.' :: after =>
      let fraction := after.takeWhile Char.isDigit
      if fraction.isEmpty then some (negative, whole, [], rest)
      else some (negative, whole, fraction, after.dropWhile Char.isDigit)
    | rest => some (negative, whole, [], rest)

theorem numberParts?_minus (rest : List Char) :
    numberParts? ('-' :: rest) = unsignedParts? true rest := rfl

theorem numberParts?_cons (h : c ≠ '-') (rest : List Char) :
    numberParts? (c :: rest) = unsignedParts? false (c :: rest) := by
  unfold numberParts?
  split
  rename_i negative unsigned heq
  split at heq
  · rename_i hcons
    exact absurd (List.cons.inj hcons).1 h
  · cases heq
    rfl

theorem WordEnds.isDigit_eq_false (h : WordEnds rest) : ∀ c ∈ rest.head?, c.isDigit = false := by
  intro c hc
  have hword := h c hc
  rw [isWordChar, Bool.or_eq_false_iff, Char.isAlphanum, Bool.or_eq_false_iff] at hword
  exact hword.1.2

theorem unsignedParts?_append {negative sign : Bool} {whole fraction after : List Char}
    (h : unsignedParts? negative text = some (sign, whole, fraction, after))
    (hdigit : ∀ c ∈ rest.head?, c.isDigit = false) (hpoint : rest.head? ≠ some '.') :
    unsignedParts? negative (text ++ rest) = some (sign, whole, fraction, after ++ rest) := by
  unfold unsignedParts? at h ⊢
  simp only [takeWhile_append_stop _ hdigit, dropWhile_append_stop _ hdigit] at h ⊢
  split at h
  · cases h
  · rename_i hwhole
    rw [if_neg hwhole]
    split at h
    · rename_i fractional hdrop
      rw [hdrop, List.cons_append]
      simp only [takeWhile_append_stop _ hdigit, dropWhile_append_stop _ hdigit]
      split at h
      · rename_i hfraction
        cases h
        rw [if_pos hfraction, hdrop, List.cons_append]
      · rename_i hfraction
        cases h
        rw [if_neg hfraction]
    · rename_i hnone
      cases h
      split
      · rename_i fractional heq
        -- A point after the digits would stand in the text, or be the first sign of what follows.
        rcases List.append_eq_cons_iff.mp heq with ⟨-, hrest⟩ | ⟨more, hdrop, -⟩
        · exact absurd (by rw [hrest]; rfl) hpoint
        · exact absurd hdrop (hnone more)
      · rfl

theorem numberParts?_append {negative : Bool} {whole fraction after : List Char}
    (h : numberParts? text = some (negative, whole, fraction, after))
    (hdigit : ∀ c ∈ rest.head?, c.isDigit = false) (hpoint : rest.head? ≠ some '.') :
    numberParts? (text ++ rest) = some (negative, whole, fraction, after ++ rest) := by
  cases text with
  | nil => cases h
  | cons c cs =>
    by_cases hminus : c = '-'
    · subst hminus
      rw [numberParts?_minus] at h
      rw [List.cons_append, numberParts?_minus]
      exact unsignedParts?_append h hdigit hpoint
    · rw [numberParts?_cons hminus] at h
      rw [List.cons_append, numberParts?_cons hminus]
      exact unsignedParts?_append h hdigit hpoint

/-- What the rule for numbers has read it also reads before the end of a word, unless a point comes
there. -/
theorem number_append {tree : Syntax} {after : List Char} (h : number text = .ok (tree, after))
    (hrest : WordEnds rest) (hpoint : rest.head? ≠ some '.') :
    number (text ++ rest) = .ok (tree, after ++ rest) := by
  unfold number at h ⊢
  cases hparts : numberParts? text with
  | none =>
    rw [hparts] at h
    cases h
  | some parts =>
    obtain ⟨negative, whole, fraction, left⟩ := parts
    rw [hparts] at h
    rw [numberParts?_append hparts hrest.isDigit_eq_false hpoint]
    simp only at h ⊢
    split at h
    · cases h
    · rename_i hword
      cases h
      have hhead : ¬ ((after ++ rest).head?.map isWordChar).getD false = true := by
        cases after with
        | cons c cs => exact hword
        | nil =>
          cases rest with
          | nil => exact hword
          | cons c cs => simp [hrest c rfl]
      rw [if_neg hhead]

theorem number_head {tree : Syntax} (h : number text = .ok (tree, rest)) :
    ∃ c cs, text = c :: cs ∧ isSpace c = false ∧ isLetter c = false ∧ c ≠ '!' := by
  cases text with
  | nil => cases h
  | cons c cs =>
    by_cases hminus : c = '-'
    · subst hminus
      exact ⟨'-', cs, rfl, by decide, by decide, by decide⟩
    · cases hdigit : c.isDigit with
      | false =>
        have hfails : number.Fails (c :: cs) := number_fails hminus hdigit
        obtain ⟨stop, hstop⟩ := hfails
        rw [hstop] at h
        cases h
      | true =>
        refine ⟨c, cs, rfl, isSpace_of_isDigit hdigit, isLetter_of_isDigit hdigit, ?_⟩
        rintro rfl
        exact absurd hdigit (by decide)

end

def numberValue? (text : List Char) : Option Binary64 :=
  match number text with
  | .ok (.number x, []) => some x
  | _ => none

theorem numberValue?_eq_some {text : List Char} {x : Binary64} :
    numberValue? text = some x ↔ number text = .ok (.number x, []) := by
  unfold numberValue?
  constructor
  · intro h
    split at h
    · rename_i heq
      rw [heq, Option.some.inj h]
    · cases h
  · intro h
    rw [h]

/-! ## Primary expressions -/

section
variable {nested : Parser Syntax} {w text rest : List Char}

theorem quotedBy_fails {c quote : Char} (h : c ≠ quote) : (quotedBy quote).Fails (c :: rest) :=
  ⟨c :: rest, if_neg h⟩

theorem stringLiteral_fails {c : Char} (hsingle : c ≠ '\'') (hdouble : c ≠ '"') :
    stringLiteral.Fails (c :: rest) :=
  (quotedBy_fails hsingle).orElse (quotedBy_fails hdouble)

theorem boolLiteral_fails_of_head (h : ∀ c ∈ text.head?, isLetter c = false) :
    boolLiteral.Fails text :=
  ((keyword_fails_of_head h).map _).orElse ((keyword_fails_of_head h).map _)

theorem boolLiteral_fails_of_ne (hw : IsWord w) (hrest : WordEnds rest)
    (htrue : w.map Char.toLower ≠ ['t', 'r', 'u', 'e'])
    (hfalse : w.map Char.toLower ≠ ['f', 'a', 'l', 's', 'e']) : boolLiteral.Fails (w ++ rest) :=
  ((keyword_fails_of_ne hw hrest htrue).map _).orElse
    ((keyword_fails_of_ne hw hrest hfalse).map _)

theorem boolLiteral_append (value : Bool) (hw : IsWord w) (hrest : WordEnds rest)
    (h : w.map Char.toLower = if value then ['t', 'r', 'u', 'e'] else ['f', 'a', 'l', 's', 'e']) :
    boolLiteral (w ++ rest) = .ok (.bool value, rest) := by
  cases value with
  | true => exact Parser.orElse_of_ok (Parser.map_of_ok _ (keyword_append hw hrest h))
  | false =>
    have hother : (keyword ['t', 'r', 'u', 'e']).Fails (w ++ rest) :=
      keyword_fails_of_ne hw hrest (by simp [h])
    rw [boolLiteral, Parser.orElse_of_fails (hother.map _)]
    exact Parser.map_of_ok _ (keyword_append hw hrest h)

theorem call_fails_of_head (h : ∀ c ∈ text.head?, isLetter c = false) :
    (call nested).Fails text := by
  obtain ⟨stop, hstop⟩ := word_fails h
  exact ⟨stop, by rw [call, hstop]; rfl⟩

theorem literal_fails {c : Char} {more : List Char} (h : text.head? ≠ some c) :
    (literal (c :: more)).Fails text := by
  refine ⟨text, if_neg ?_⟩
  cases text with
  | nil => exact Bool.false_ne_true
  | cons d cs =>
    have hne : c ≠ d := fun heq => h (congrArg some heq.symm)
    simp [List.isPrefixOf, hne]

theorem call_fails_append (hw : IsWord w) (hrest : WordEnds rest)
    (hcall : (skipSpace rest).head? ≠ some '(') : (call nested).Fails (w ++ rest) := by
  have hfails : (literal ['(']).Fails (skipSpace rest) := literal_fails hcall
  obtain ⟨stop, hstop⟩ := spaced_fails hfails
  exact ⟨stop, by simp only [call, word_append hw hrest, hstop, bind, Except.bind]⟩

end

/-! ## Negations -/

section
variable {nested : Parser Syntax} {w text rest : List Char} {tree : Syntax}

theorem notOperator_fails {c : Char} (h : (keyword ['n', 'o', 't']).Fails (c :: rest))
    (hmark : c ≠ '!') : notOperator.Fails (c :: rest) := by
  refine h.orElse ⟨c :: rest, ?_⟩
  dsimp only
  split
  · rename_i heq
    exact absurd (List.cons.inj heq).1 hmark
  · rename_i heq
    exact absurd (List.cons.inj heq).1 hmark
  · rfl

theorem notOperator_fails_of_head {c : Char} (hletter : isLetter c = false) (hmark : c ≠ '!') :
    notOperator.Fails (c :: rest) := by
  refine notOperator_fails (keyword_fails_of_head fun d hd => ?_) hmark
  cases hd
  exact hletter

theorem notOperator_fails_of_ne (hw : IsWord w) (hrest : WordEnds rest)
    (h : w.map Char.toLower ≠ ['n', 'o', 't']) : notOperator.Fails (w ++ rest) := by
  have hkeyword := keyword_fails_of_ne hw hrest h
  obtain ⟨c, cs, rfl, hc⟩ := hw.head
  exact notOperator_fails hkeyword (ne_of_isLetter hc (by decide))

theorem primary_skipSpace (nested : Parser Syntax) (text : List Char) :
    primary nested (skipSpace text) = primary nested text := spaced_skipSpace _ text

theorem unary_skipSpace (nested : Parser Syntax) (count : Nat) (text : List Char) :
    unary nested count (skipSpace text) = unary nested count text := by
  cases count with
  | zero => exact primary_skipSpace nested text
  | succ count =>
    simp only [unary, Parser.orElse, Parser.map, Parser.pair, spaced_skipSpace, primary_skipSpace]

theorem unary_of_primary (h : notOperator.Fails (skipSpace text)) (count : Nat) :
    unary nested count text = primary nested text := by
  cases count with
  | zero => rfl
  | succ count => exact Parser.orElse_of_fails (((spaced_fails h).pair _).map _)

theorem unary_not {inner : List Char} {count : Nat}
    (h : notOperator (skipSpace text) = .ok ((), inner))
    (hinner : unary nested count inner = .ok (tree, rest)) :
    unary nested (count + 1) text = .ok (.not tree, rest) := by
  rw [← unary_skipSpace] at hinner
  exact Parser.orElse_of_ok (Parser.map_of_ok _ (Parser.pair_of_ok (spaced_of_ok h) hinner))

end

/-! ## Comparisons -/

section
variable {nested : Parser Syntax} {text rest : List Char} {left right : Syntax}

theorem comparisonOperator_fails {c : Char} (hgt : c ≠ '>') (hlt : c ≠ '<') (heq : c ≠ '=')
    (hmark : c ≠ '!') : comparisonOperator.Fails (c :: rest) := by
  have hnone : comparisonTable.find? (fun entry => entry.1.isPrefixOf (c :: rest)) = none := by
    simp [comparisonTable, List.isPrefixOf, hgt.symm, hlt.symm, heq.symm, hmark.symm]
  exact ⟨c :: rest, by rw [comparisonOperator, hnone]⟩

theorem comparison_of_unary (hleft : unary nested text.length text = .ok (left, rest))
    (h : comparisonOperator.Fails (skipSpace rest)) :
    comparison nested text = .ok (left, rest) := by
  obtain ⟨stop, hstop⟩ := (spaced_fails h).pair fun text => unary nested text.length text
  simp only [comparison, hleft, hstop]

theorem comparison_of_operator {middle after : List Char} {op : Comparison}
    (hleft : unary nested text.length text = .ok (left, middle))
    (hop : comparisonOperator (skipSpace middle) = .ok (op, after))
    (hright : unary nested (skipSpace after).length (skipSpace after) = .ok (right, rest)) :
    comparison nested text = .ok (.compare op left right, rest) := by
  have hpair := Parser.pair_of_ok (r := fun text => unary nested text.length text)
    (spaced_of_ok hop) hright
  simp only [comparison, hleft, hpair]

end

/-! ## Connectives -/

def andOperator : Parser Unit := .orElse (literal ['&', '&']) (keyword ['a', 'n', 'd'])

def orOperator : Parser Unit := .orElse (literal ['|', '|']) (keyword ['o', 'r'])

theorem andOperator_fails {text : List Char} (h : (keyword ['a', 'n', 'd']).Fails text)
    (hmark : text.head? ≠ some '&') : andOperator.Fails text := (literal_fails hmark).orElse h

theorem orOperator_fails {text : List Char} (h : (keyword ['o', 'r']).Fails text)
    (hmark : text.head? ≠ some '|') : orOperator.Fails text := (literal_fails hmark).orElse h

theorem andOperator_append {w rest : List Char} (hw : IsWord w) (hrest : WordEnds rest)
    (h : w.map Char.toLower = ['a', 'n', 'd']) : andOperator (w ++ rest) = .ok ((), rest) := by
  have hmark : (w ++ rest).head? ≠ some '&' := hw.head?_append_ne (by decide)
  rw [andOperator, Parser.orElse_of_fails (literal_fails hmark)]
  exact keyword_append hw hrest h

theorem orOperator_append {w rest : List Char} (hw : IsWord w) (hrest : WordEnds rest)
    (h : w.map Char.toLower = ['o', 'r']) : orOperator (w ++ rest) = .ok ((), rest) := by
  have hmark : (w ++ rest).head? ≠ some '|' := hw.head?_append_ne (by decide)
  rw [orOperator, Parser.orElse_of_fails (literal_fails hmark)]
  exact keyword_append hw hrest h

theorem conjunction_eq (nested : Parser Syntax) :
    conjunction nested = joined andOperator .and (comparison nested) := rfl

theorem disjunction_eq (nested : Parser Syntax) :
    disjunction nested = joined orOperator .or (conjunction nested) := rfl

section
variable {connective : Parser Unit} {join : Syntax → Syntax → Syntax} {operand : Parser Syntax}
  {text rest : List Char} {tree : Syntax}

/-- An operand and some repetitions have been read as one tree, with a text that is left. -/
def Joins (connective : Parser Unit) (join : Syntax → Syntax → Syntax) (operand : Parser Syntax)
    (text rest : List Char) (tree : Syntax) : Prop :=
  ∃ first start k, operand text = .ok (first, start) ∧ k + rest.length ≤ text.length ∧
    ∀ count, ((Parser.pair (spaced connective) operand).map Prod.snd).fold join (count + k) first
      start = ((Parser.pair (spaced connective) operand).map Prod.snd).fold join count tree rest

namespace Joins

theorem of_operand (h : operand text = .ok (tree, rest)) (hlength : rest.length ≤ text.length) :
    Joins connective join operand text rest tree :=
  ⟨tree, rest, 0, h, by rwa [Nat.zero_add], fun _ => rfl⟩

theorem next (h : Joins connective join operand text rest tree) {after rest' : List Char}
    {tree' : Syntax} (hconnective : connective (skipSpace rest) = .ok ((), after))
    (hoperand : operand (skipSpace after) = .ok (tree', rest'))
    (hlength : rest'.length < rest.length) :
    Joins connective join operand text rest' (join tree tree') := by
  obtain ⟨first, start, k, hfirst, hk, hfold⟩ := h
  refine ⟨first, start, k + 1, hfirst, by omega, fun count => ?_⟩
  have hstep : (Parser.pair (spaced connective) operand).map Prod.snd rest = .ok (tree', rest') :=
    Parser.map_of_ok _ (Parser.pair_of_ok (spaced_of_ok hconnective) hoperand)
  rw [← Nat.add_assoc, Nat.add_right_comm, hfold, Parser.fold_of_ok hstep]

/-- Where no further connective comes, all has been read. -/
theorem joined (h : Joins connective join operand text rest tree)
    (hend : connective.Fails (skipSpace rest)) :
    joined connective join operand text = .ok (tree, rest) := by
  obtain ⟨first, start, k, hfirst, hk, hfold⟩ := h
  have hfails : ((Parser.pair (spaced connective) operand).map Prod.snd).Fails rest :=
    ((spaced_fails hend).pair operand).map Prod.snd
  obtain ⟨count, hcount⟩ := Nat.exists_eq_add_of_le' (Nat.le_trans (Nat.le_add_right k _) hk)
  simp only [Guard.joined, hfirst, hcount]
  rw [hfold, Parser.fold_of_fails hfails]

end Joins

end

end AutomationNet.Guard
