import AutomationNet.Proofs.Fallible
import AutomationNet.Proofs.Guard.Grammar

/-!
# What the guard grammar has accepted

A parser that accepts a text tells what the text begins with and what is left of it.

* `Parser.Accepts` : a parser accepts a text
* `Parser.orElse_eq_ok`, `Parser.pair_eq_ok`, `spaced_eq_ok` : the combinators
* `word_eq_ok`, `keyword_eq_ok`, `literal_eq_ok` : words and signs
* `notOperator_eq_ok`, `comparisonOperator_eq_ok` : operators
* `Primary` : what a primary expression can be
* `primary_eq_ok` : **a primary expression is one of these, with blanks around it**
* `unary_eq_ok`, `comparison_eq_ok` : the levels above
* `primary_fails_of_head`, `unary_fails_of_head` : the characters that no operand begins with
-/

namespace AutomationNet.Guard

namespace Parser

variable {α β : Type} {p q : Parser α} {r : Parser β} {text rest : List Char} {a : α} {b : β}

def Accepts (p : Parser α) (text : List Char) : Prop := ∃ a rest, p text = .ok (a, rest)

theorem accepts_or_fails (p : Parser α) (text : List Char) : p.Accepts text ∨ p.Fails text := by
  cases h : p text with
  | ok result => exact .inl ⟨result.1, result.2, h⟩
  | error stop => exact .inr ⟨stop, h⟩

theorem Accepts.not_fails (h : p.Accepts text) : ¬ p.Fails text := by
  rintro ⟨stop, hstop⟩
  obtain ⟨a, rest, hok⟩ := h
  cases hok.symm.trans hstop

theorem orElse_eq_ok : orElse p q text = .ok (a, rest) ↔
    p text = .ok (a, rest) ∨ p.Fails text ∧ q text = .ok (a, rest) := by
  rcases p.accepts_or_fails text with ⟨a', rest', hok⟩ | hfails
  · have hnot : ¬ p.Fails text := Accepts.not_fails ⟨a', rest', hok⟩
    rw [orElse_of_ok hok, hok]
    simp [hnot]
  · have hnot : p text ≠ .ok (a, rest) := fun hok => Accepts.not_fails ⟨a, rest, hok⟩ hfails
    rw [orElse_of_fails hfails]
    simp [hnot, hfails]

theorem Accepts.orElse_right (h : q.Accepts text) : (orElse p q).Accepts text := by
  rcases p.accepts_or_fails text with ⟨a, rest, hok⟩ | hfails
  · exact ⟨a, rest, orElse_of_ok hok⟩
  · obtain ⟨a, rest, hok⟩ := h
    exact ⟨a, rest, (orElse_of_fails hfails).trans hok⟩

theorem map_eq_ok {f : α → β} :
    p.map f text = .ok (b, rest) ↔ ∃ a, p text = .ok (a, rest) ∧ f a = b := by
  rw [map]
  rcases p.accepts_or_fails text with ⟨a', rest', hok⟩ | ⟨stop, hstop⟩
  · simp only [hok, Except.ok.injEq, Prod.mk.injEq]
    constructor
    · rintro ⟨hb, hrest⟩
      exact ⟨a', ⟨rfl, hrest⟩, hb⟩
    · rintro ⟨a, ⟨rfl, hrest⟩, hb⟩
      exact ⟨hb, hrest⟩
  · simp [hstop]

theorem pair_eq_ok : pair p r text = .ok ((a, b), rest) ↔
    ∃ middle, p text = .ok (a, middle) ∧ r middle = .ok (b, rest) := by
  rw [pair]
  rcases p.accepts_or_fails text with ⟨a', middle, hok⟩ | ⟨stop, hstop⟩
  · simp only [hok, Except.ok.injEq, Prod.mk.injEq]
    rcases r.accepts_or_fails middle with ⟨b', rest', hok'⟩ | ⟨stop, hstop⟩
    · simp only [hok', Except.ok.injEq, Prod.mk.injEq]
      constructor
      · rintro ⟨⟨ha, hb⟩, hrest⟩
        exact ⟨middle, ⟨ha, rfl⟩, by rw [hok', hb, hrest]⟩
      · rintro ⟨middle', ⟨ha, rfl⟩, hok''⟩
        cases hok'.symm.trans hok''
        exact ⟨⟨ha, rfl⟩, rfl⟩
    · simp only [hstop, reduceCtorEq, false_iff, not_exists, not_and]
      rintro middle' ⟨-, rfl⟩ hok'
      cases hstop.symm.trans hok'
  · simp [hstop]

end Parser

/-! ## Blanks, words and signs -/

section
variable {α : Type} {p : Parser α} {a : α} {text rest w : List Char}

theorem spaced_eq_ok : spaced p text = .ok (a, rest) ↔
    ∃ after, p (skipSpace text) = .ok (a, after) ∧ rest = skipSpace after := by
  rw [spaced]
  rcases p.accepts_or_fails (skipSpace text) with ⟨a', after, hok⟩ | ⟨stop, hstop⟩
  · simp only [hok, Except.ok.injEq, Prod.mk.injEq]
    constructor
    · rintro ⟨ha, hrest⟩
      exact ⟨after, ⟨ha, rfl⟩, hrest.symm⟩
    · rintro ⟨after', ⟨ha, rfl⟩, hrest⟩
      exact ⟨ha, hrest.symm⟩
  · simp [hstop]

theorem wordEnds_dropWhile (text : List Char) : WordEnds (text.dropWhile isWordChar) := by
  intro c hc
  have hnot := List.head?_dropWhile_not isWordChar text
  rw [hc] at hnot
  simpa using hnot

theorem word_eq_ok : word text = .ok (w, rest) ↔ IsWord w ∧ text = w ++ rest ∧ WordEnds rest := by
  constructor
  · intro h
    cases text with
    | nil => cases h
    | cons c cs =>
      rw [word] at h
      split at h
      · rename_i hc
        cases h
        refine ⟨⟨hc, List.all_eq_true.mpr fun d hd => List.mem_takeWhile_imp hd⟩, ?_,
          wordEnds_dropWhile cs⟩
        rw [List.cons_append, List.takeWhile_append_dropWhile]
      · cases h
  · rintro ⟨hw, rfl, hrest⟩
    exact word_append hw hrest

theorem keyword_eq_ok {expected : List Char} : keyword expected text = .ok ((), rest) ↔
    ∃ w, IsWord w ∧ text = w ++ rest ∧ WordEnds rest ∧ w.map Char.toLower = expected := by
  constructor
  · intro h
    rw [keyword] at h
    split at h
    · rename_i found after hword
      split at h
      · rename_i hfound
        cases h
        obtain ⟨hw, htext, hrest⟩ := word_eq_ok.mp hword
        exact ⟨found, hw, htext, hrest, hfound⟩
      · cases h
    · cases h
  · rintro ⟨w, hw, rfl, hrest, hexpected⟩
    exact keyword_append hw hrest hexpected

theorem literal_eq_ok : literal w text = .ok ((), rest) ↔ text = w ++ rest := by
  rw [literal]
  constructor
  · intro h
    split at h
    · rename_i hprefix
      simp only [Except.ok.injEq, Prod.mk.injEq, true_and] at h
      obtain ⟨more, rfl⟩ := List.isPrefixOf_iff_prefix.mp hprefix
      rw [← h, List.drop_left]
    · cases h
  · rintro rfl
    simp

/-- A text that begins with a letter begins with a word. -/
theorem exists_word {c : Char} (h : isLetter c = true) (cs : List Char) :
    ∃ w rest, c :: cs = w ++ rest ∧ IsWord w ∧ WordEnds rest := by
  have hword : word (c :: cs) = .ok (c :: cs.takeWhile isWordChar, cs.dropWhile isWordChar) :=
    if_pos h
  obtain ⟨hw, htext, hrest⟩ := word_eq_ok.mp hword
  exact ⟨_, _, htext, hw, hrest⟩

end

/-! ## Operators -/

section
variable {text rest : List Char}

/-- An exclamation mark that does not begin an operator. -/
def notMark : Parser Unit
  | '!' :: '=' :: rest => .error ('=' :: rest)
  | '!' :: rest => .ok ((), rest)
  | text => .error text

theorem notOperator_eq : notOperator = .orElse (keyword ['n', 'o', 't']) notMark := rfl

theorem notMark_eq_ok :
    notMark text = .ok ((), rest) ↔ text = '!' :: rest ∧ rest.head? ≠ some '=' := by
  constructor
  · intro h
    unfold notMark at h
    split at h
    · cases h
    · rename_i more hne
      cases h
      refine ⟨rfl, fun hhead => ?_⟩
      obtain ⟨cs, hcons⟩ := List.head?_eq_some_iff.mp hhead
      exact hne cs hcons
    · cases h
  · rintro ⟨rfl, hhead⟩
    unfold notMark
    split
    · rename_i heq
      cases heq
      exact absurd rfl hhead
    · rename_i heq
      cases heq
      rfl
    · rename_i hne
      exact absurd rfl (hne _)

theorem notOperator_eq_ok : notOperator text = .ok ((), rest) ↔
    (∃ w, IsWord w ∧ text = w ++ rest ∧ WordEnds rest ∧ w.map Char.toLower = ['n', 'o', 't']) ∨
      text = '!' :: rest ∧ rest.head? ≠ some '=' := by
  rw [notOperator_eq, Parser.orElse_eq_ok, keyword_eq_ok, notMark_eq_ok]
  refine or_congr_right (and_iff_right_of_imp ?_)
  rintro ⟨rfl, -⟩
  exact keyword_fails_of_head (by rintro d ⟨⟩; decide)

theorem comparisonOperator_eq_ok {op : Comparison} (h : comparisonOperator text = .ok (op, rest)) :
    ∃ spelling, (spelling, op) ∈ comparisonTable ∧ text = spelling ++ rest := by
  rw [comparisonOperator] at h
  split at h
  · rename_i spelling op' hfind
    cases h
    have hprefix := List.find?_some hfind
    obtain ⟨more, rfl⟩ := List.isPrefixOf_iff_prefix.mp hprefix
    exact ⟨spelling, List.mem_of_find?_eq_some hfind, by rw [List.drop_left]⟩
  · cases h

/-- A comparison begins with one of four signs, a mark only before another sign. -/
theorem head_of_comparisonOperator (h : comparisonOperator.Accepts text) :
    (∃ c cs, text = c :: cs ∧ (c = '>' ∨ c = '<' ∨ c = '=')) ∨ ∃ cs, text = '!' :: '=' :: cs := by
  obtain ⟨op, rest, hok⟩ := h
  obtain ⟨spelling, hmem, rfl⟩ := comparisonOperator_eq_ok hok
  simp only [comparisonTable, List.mem_cons, Prod.mk.injEq, List.not_mem_nil, or_false] at hmem
  rcases hmem with ⟨rfl, -⟩ | ⟨rfl, -⟩ | ⟨rfl, -⟩ | ⟨rfl, -⟩ | ⟨rfl, -⟩ | ⟨rfl, -⟩ | ⟨rfl, -⟩ |
    ⟨rfl, -⟩ | ⟨rfl, -⟩ | ⟨rfl, -⟩ <;> simp

theorem connective_eq_ok {c : Char} {name : List Char}
    (h : Parser.orElse (literal [c, c]) (keyword name) text = .ok ((), rest)) :
    text = c :: c :: rest ∨
      ∃ w, IsWord w ∧ text = w ++ rest ∧ WordEnds rest ∧ w.map Char.toLower = name := by
  rcases Parser.orElse_eq_ok.mp h with hsign | ⟨-, hword⟩
  · exact .inl (literal_eq_ok.mp hsign)
  · exact .inr (keyword_eq_ok.mp hword)

end

/-! ## Primary expressions -/

section
variable {nested : Parser Syntax} {text rest w : List Char} {tree : Syntax}

theorem boolLiteral_eq_ok (h : boolLiteral text = .ok (tree, rest)) :
    ∃ value w, IsWord w ∧ text = w ++ rest ∧ WordEnds rest ∧ tree = .bool value ∧
      w.map Char.toLower = if value then ['t', 'r', 'u', 'e'] else ['f', 'a', 'l', 's', 'e'] := by
  rcases Parser.orElse_eq_ok.mp h with htrue | ⟨-, hfalse⟩
  · obtain ⟨_, hkeyword, rfl⟩ := Parser.map_eq_ok.mp htrue
    obtain ⟨w, hw, htext, hrest, hname⟩ := keyword_eq_ok.mp hkeyword
    exact ⟨true, w, hw, htext, hrest, rfl, hname⟩
  · obtain ⟨_, hkeyword, rfl⟩ := Parser.map_eq_ok.mp hfalse
    obtain ⟨w, hw, htext, hrest, hname⟩ := keyword_eq_ok.mp hkeyword
    exact ⟨false, w, hw, htext, hrest, rfl, hname⟩

theorem call_eq_ok : call nested text = .ok (tree, rest) ↔
    ∃ w opening inside args closing after, IsWord w ∧ text = w ++ opening ∧ WordEnds opening ∧
      skipSpace opening = '(' :: inside ∧
      arguments nested (skipSpace inside) = (args, closing) ∧ skipSpace closing = ')' :: after ∧
      tree = .call (String.ofList w) args ∧ rest = skipSpace after := by
  constructor
  · intro h
    obtain ⟨⟨w, opening⟩, hword, h⟩ := bind_eq_ok.mp h
    obtain ⟨⟨_, inner⟩, hopen, h⟩ := bind_eq_ok.mp h
    obtain ⟨⟨_, after⟩, hclose, h⟩ := bind_eq_ok.mp h
    cases h
    obtain ⟨hw, htext, hends⟩ := word_eq_ok.mp hword
    obtain ⟨inside, hinside, rfl⟩ := spaced_eq_ok.mp hopen
    obtain ⟨after, hafter, rfl⟩ := spaced_eq_ok.mp hclose
    exact ⟨w, opening, inside, _, _, after, hw, htext, hends, literal_eq_ok.mp hinside, rfl,
      literal_eq_ok.mp hafter, rfl, rfl⟩
  · rintro ⟨w, opening, inside, args, closing, after, hw, rfl, hends, hopen, hargs, hclose, rfl,
      rfl⟩
    have hopening : spaced (literal ['(']) opening = .ok ((), skipSpace inside) :=
      spaced_eq_ok.mpr ⟨inside, literal_eq_ok.mpr hopen, rfl⟩
    have hclosing : spaced (literal [')']) closing = .ok ((), skipSpace after) :=
      spaced_eq_ok.mpr ⟨after, literal_eq_ok.mpr hclose, rfl⟩
    simp only [call, word_append hw hends, hopening, hargs, hclosing, bind, Except.bind, pure,
      Except.pure]

theorem parenthesized_eq_ok : parenthesized nested text = .ok (tree, rest) ↔
    ∃ inner, text = '(' :: inner ∧ nested inner = .ok (tree, ')' :: rest) := by
  constructor
  · intro h
    obtain ⟨⟨_, inner⟩, hopen, h⟩ := bind_eq_ok.mp h
    obtain ⟨⟨tree', closing⟩, hnested, h⟩ := bind_eq_ok.mp h
    obtain ⟨⟨_, after⟩, hclose, h⟩ := bind_eq_ok.mp h
    cases h
    refine ⟨inner, literal_eq_ok.mp hopen, ?_⟩
    rw [hnested, literal_eq_ok.mp hclose]
    rfl
  · rintro ⟨inner, rfl, hnested⟩
    have hopen : literal ['('] ('(' :: inner) = .ok ((), inner) := rfl
    have hclose : literal [')'] (')' :: rest) = .ok ((), rest) := rfl
    simp only [parenthesized, hopen, hnested, hclose, bind, Except.bind, pure, Except.pure]

theorem head_of_stringLiteral (h : stringLiteral text = .ok (tree, rest)) :
    ∃ c cs, text = c :: cs ∧ (c = '\'' ∨ c = '"') := by
  cases text with
  | nil => cases h
  | cons c cs =>
    refine ⟨c, cs, rfl, ?_⟩
    by_contra hquote
    obtain ⟨hsingle, hdouble⟩ := not_or.mp hquote
    exact Parser.Accepts.not_fails ⟨tree, rest, h⟩ (stringLiteral_fails hsingle hdouble)

/-- What a primary expression without blanks around it can be. A word that is the value of a truth
is nothing else, and a word is a name only if it is not called. -/
inductive Primary (nested : Parser Syntax) : List Char → Syntax → List Char → Prop where
  | number {text rest : List Char} {tree : Syntax} (h : number text = .ok (tree, rest)) :
      Primary nested text tree rest
  | string {text rest : List Char} {tree : Syntax} (h : stringLiteral text = .ok (tree, rest)) :
      Primary nested text tree rest
  | bool {w rest : List Char} (value : Bool) (hw : IsWord w) (hrest : WordEnds rest)
      (h : w.map Char.toLower = if value then ['t', 'r', 'u', 'e'] else ['f', 'a', 'l', 's', 'e']) :
      Primary nested (w ++ rest) (.bool value) rest
  | call {w opening rest : List Char} {tree : Syntax} (hw : IsWord w) (hrest : WordEnds opening)
      (htrue : w.map Char.toLower ≠ ['t', 'r', 'u', 'e'])
      (hfalse : w.map Char.toLower ≠ ['f', 'a', 'l', 's', 'e'])
      (h : call nested (w ++ opening) = .ok (tree, rest)) : Primary nested (w ++ opening) tree rest
  | ident {w rest : List Char} (hw : IsWord w) (hrest : WordEnds rest)
      (htrue : w.map Char.toLower ≠ ['t', 'r', 'u', 'e'])
      (hfalse : w.map Char.toLower ≠ ['f', 'a', 'l', 's', 'e'])
      (hcall : (call nested).Fails (w ++ rest)) :
      Primary nested (w ++ rest) (.ident (String.ofList w)) rest
  | parenthesized {inner rest : List Char} {tree : Syntax}
      (h : nested inner = .ok (tree, ')' :: rest)) : Primary nested ('(' :: inner) tree rest

def alternatives (nested : Parser Syntax) : Parser Syntax :=
  number.orElse (boolLiteral.orElse (stringLiteral.orElse ((call nested).orElse
    (Guard.ident.orElse (Guard.parenthesized nested)))))

theorem primary_eq (nested : Parser Syntax) : primary nested = spaced (alternatives nested) := rfl

theorem alternatives_word (hw : IsWord w) (hrest : WordEnds rest)
    (htrue : w.map Char.toLower ≠ ['t', 'r', 'u', 'e'])
    (hfalse : w.map Char.toLower ≠ ['f', 'a', 'l', 's', 'e']) :
    alternatives nested (w ++ rest) =
      (call nested).orElse (Guard.ident.orElse (Guard.parenthesized nested)) (w ++ rest) := by
  have hbool := boolLiteral_fails_of_ne hw hrest htrue hfalse
  obtain ⟨c, cs, rfl, hc⟩ := hw.head
  have hnumber : Guard.number.Fails (c :: cs ++ rest) := number_fails_of_isLetter hc
  have hstring : stringLiteral.Fails (c :: cs ++ rest) :=
    stringLiteral_fails (ne_of_isLetter hc (by decide)) (ne_of_isLetter hc (by decide))
  rw [alternatives, Parser.orElse_of_fails hnumber, Parser.orElse_of_fails hbool,
    Parser.orElse_of_fails hstring]

/-- A sign that begins no number, word or string can only open a parenthesis. -/
theorem alternatives_sign {c : Char} (hminus : c ≠ '-') (hdigit : c.isDigit = false)
    (hletter : isLetter c = false) (hsingle : c ≠ '\'') (hdouble : c ≠ '"') :
    alternatives nested (c :: rest) = Guard.parenthesized nested (c :: rest) := by
  have hhead : ∀ d ∈ (c :: rest).head?, isLetter d = false := by
    rintro d ⟨⟩
    exact hletter
  have hnumber : Guard.number.Fails (c :: rest) := number_fails hminus hdigit
  rw [alternatives, Parser.orElse_of_fails hnumber,
    Parser.orElse_of_fails (boolLiteral_fails_of_head hhead),
    Parser.orElse_of_fails (stringLiteral_fails hsingle hdouble),
    Parser.orElse_of_fails (call_fails_of_head hhead), Guard.ident,
    Parser.orElse_of_fails ((word_fails hhead).map _)]

theorem Primary.of_alternatives (h : alternatives nested text = .ok (tree, rest)) :
    Primary nested text tree rest := by
  rcases Parser.orElse_eq_ok.mp h with hnumber | ⟨-, h⟩
  · exact .number hnumber
  rcases Parser.orElse_eq_ok.mp h with hbool | ⟨hbool, h⟩
  · obtain ⟨value, w, hw, rfl, hrest, rfl, hname⟩ := boolLiteral_eq_ok hbool
    exact .bool value hw hrest hname
  have hname : ∀ {w rest : List Char} (value : Bool), text = w ++ rest → IsWord w → WordEnds rest →
      w.map Char.toLower ≠ if value then ['t', 'r', 'u', 'e'] else ['f', 'a', 'l', 's', 'e'] := by
    rintro w rest value rfl hw hrest hname
    exact Parser.Accepts.not_fails ⟨_, _, boolLiteral_append value hw hrest hname⟩ hbool
  rcases Parser.orElse_eq_ok.mp h with hstring | ⟨-, h⟩
  · exact .string hstring
  rcases Parser.orElse_eq_ok.mp h with hcall | ⟨hcall, h⟩
  · obtain ⟨w, opening, _, _, _, _, hw, rfl, hends, -⟩ := call_eq_ok.mp hcall
    exact .call hw hends (hname true rfl hw hends) (hname false rfl hw hends) hcall
  rcases Parser.orElse_eq_ok.mp h with hident | ⟨-, h⟩
  · obtain ⟨w, hword, rfl⟩ := Parser.map_eq_ok.mp hident
    obtain ⟨hw, rfl, hends⟩ := word_eq_ok.mp hword
    exact .ident hw hends (hname true rfl hw hends) (hname false rfl hw hends) hcall
  · obtain ⟨inner, rfl, hnested⟩ := parenthesized_eq_ok.mp h
    exact .parenthesized hnested

theorem Primary.alternatives (h : Primary nested text tree rest) :
    alternatives nested text = .ok (tree, rest) := by
  cases h with
  | number h => exact Parser.orElse_of_ok h
  | string h =>
    obtain ⟨c, cs, rfl, hquote⟩ := head_of_stringLiteral h
    have hletter : isLetter c = false := by rcases hquote with rfl | rfl <;> decide
    have hnumber : Guard.number.Fails (c :: cs) :=
      number_fails (by rcases hquote with rfl | rfl <;> decide)
        (by rcases hquote with rfl | rfl <;> decide)
    have hbool : boolLiteral.Fails (c :: cs) :=
      boolLiteral_fails_of_head (by rintro d ⟨⟩; exact hletter)
    rw [Guard.alternatives, Parser.orElse_of_fails hnumber, Parser.orElse_of_fails hbool]
    exact Parser.orElse_of_ok h
  | bool value hw hrest hname =>
    have hbool := boolLiteral_append value hw hrest hname
    obtain ⟨c, cs, rfl, hc⟩ := hw.head
    have hnumber : Guard.number.Fails (c :: cs ++ rest) := number_fails_of_isLetter hc
    rw [Guard.alternatives, Parser.orElse_of_fails hnumber]
    exact Parser.orElse_of_ok hbool
  | call hw hrest htrue hfalse h =>
    rw [alternatives_word hw hrest htrue hfalse]
    exact Parser.orElse_of_ok h
  | ident hw hrest htrue hfalse hcall =>
    rw [alternatives_word hw hrest htrue hfalse, Parser.orElse_of_fails hcall]
    exact Parser.orElse_of_ok (Parser.map_of_ok _ (word_append hw hrest))
  | parenthesized h =>
    rw [alternatives_sign (by decide) (by decide) (by decide) (by decide) (by decide)]
    exact parenthesized_eq_ok.mpr ⟨_, rfl, h⟩

/-- **A primary expression is one of these, with blanks around it.** -/
theorem primary_eq_ok : primary nested text = .ok (tree, rest) ↔
    ∃ after, Primary nested (skipSpace text) tree after ∧ rest = skipSpace after := by
  rw [primary_eq, spaced_eq_ok]
  constructor
  · rintro ⟨after, h, hrest⟩
    exact ⟨after, .of_alternatives h, hrest⟩
  · rintro ⟨after, h, hrest⟩
    exact ⟨after, h.alternatives, hrest⟩

theorem primary_number (h : number text = .ok (tree, [])) (hrest : WordEnds rest)
    (hpoint : rest.head? ≠ some '.') :
    primary nested (text ++ rest) = .ok (tree, skipSpace rest) := by
  obtain ⟨c, cs, rfl, hspace, -, -⟩ := number_head h
  refine primary_eq_ok.mpr ⟨rest, ?_, rfl⟩
  rw [List.cons_append, skipSpace_cons hspace]
  exact .number (number_append h hrest hpoint)

theorem IsWord.skipSpace_append (hw : IsWord w) (rest : List Char) :
    skipSpace (w ++ rest) = w ++ rest := by
  obtain ⟨c, cs, rfl, hc⟩ := hw.head
  exact skipSpace_cons (isSpace_of_isLetter hc)

theorem primary_bool (value : Bool) (hw : IsWord w) (hrest : WordEnds rest)
    (h : w.map Char.toLower = if value then ['t', 'r', 'u', 'e'] else ['f', 'a', 'l', 's', 'e']) :
    primary nested (w ++ rest) = .ok (.bool value, skipSpace rest) := by
  refine primary_eq_ok.mpr ⟨rest, ?_, rfl⟩
  rw [hw.skipSpace_append]
  exact .bool value hw hrest h

theorem primary_ident (hw : IsWord w) (hrest : WordEnds rest)
    (hcall : (skipSpace rest).head? ≠ some '(')
    (htrue : w.map Char.toLower ≠ ['t', 'r', 'u', 'e'])
    (hfalse : w.map Char.toLower ≠ ['f', 'a', 'l', 's', 'e']) :
    primary nested (w ++ rest) = .ok (.ident (String.ofList w), skipSpace rest) := by
  refine primary_eq_ok.mpr ⟨rest, ?_, rfl⟩
  rw [hw.skipSpace_append]
  exact .ident hw hrest htrue hfalse (call_fails_append hw hrest hcall)

theorem primary_parenthesized (h : nested (text ++ ')' :: rest) = .ok (tree, ')' :: rest)) :
    primary nested ('(' :: text ++ ')' :: rest) = .ok (tree, skipSpace rest) :=
  primary_eq_ok.mpr ⟨rest, .parenthesized h, rfl⟩

end

/-! ## Negations and comparisons -/

section
variable {nested : Parser Syntax} {text rest : List Char} {tree : Syntax} {count : Nat}

/-- A negation that has nothing to negate is a primary expression. -/
theorem unary_eq_ok (h : unary nested (count + 1) text = .ok (tree, rest)) :
    (∃ inner negated, notOperator (skipSpace text) = .ok ((), inner) ∧
      unary nested count inner = .ok (negated, rest) ∧ tree = .not negated) ∨
    (notOperator.Fails (skipSpace text) ∨ ∃ inner, notOperator (skipSpace text) = .ok ((), inner) ∧
      (unary nested count).Fails inner) ∧ primary nested text = .ok (tree, rest) := by
  rcases Parser.orElse_eq_ok.mp h with hnot | ⟨hfails, hprimary⟩
  · obtain ⟨⟨_, negated⟩, hpair, rfl⟩ := Parser.map_eq_ok.mp hnot
    obtain ⟨middle, hoperator, hinner⟩ := Parser.pair_eq_ok.mp hpair
    obtain ⟨inner, hread, rfl⟩ := spaced_eq_ok.mp hoperator
    rw [unary_skipSpace] at hinner
    exact .inl ⟨inner, negated, hread, hinner, rfl⟩
  · refine .inr ⟨?_, hprimary⟩
    rcases notOperator.accepts_or_fails (skipSpace text) with ⟨_, inner, hread⟩ | hread
    · refine .inr ⟨inner, hread, ?_⟩
      rcases (unary nested count).accepts_or_fails inner with ⟨negated, after, hinner⟩ | hinner
      · rw [← unary_skipSpace] at hinner
        have hnegation := Parser.map_of_ok (fun parts : Unit × Syntax => Syntax.not parts.2)
          (Parser.pair_of_ok (spaced_of_ok hread) hinner)
        exact absurd hfails (Parser.Accepts.not_fails ⟨_, _, hnegation⟩)
      · exact hinner
    · exact .inl hread

theorem comparison_eq_ok (h : comparison nested text = .ok (tree, rest)) :
    ∃ left middle, unary nested text.length text = .ok (left, middle) ∧
      ((∃ op after right, comparisonOperator (skipSpace middle) = .ok (op, after) ∧
        unary nested (skipSpace after).length (skipSpace after) = .ok (right, rest) ∧
        tree = .compare op left right) ∨ tree = left ∧ rest = middle) := by
  simp only [comparison] at h
  split at h
  · cases h
  · rename_i left middle hleft
    refine ⟨left, middle, hleft, ?_⟩
    split at h
    · rename_i op right after hpair
      cases h
      obtain ⟨between, hoperator, hright⟩ := Parser.pair_eq_ok.mp hpair
      obtain ⟨after', hread, rfl⟩ := spaced_eq_ok.mp hoperator
      exact .inl ⟨op, after', right, hread, hright, rfl⟩
    · cases h
      exact .inr ⟨rfl, rfl⟩

end

/-! ## What no operand begins with -/

section
variable {nested : Parser Syntax} {text rest w : List Char}

def beginsPrimary (c : Char) : Bool :=
  c = '-' || c.isDigit || isLetter c || c = '\'' || c = '"' || c = '('

theorem primary_fails_of_head (h : ∀ c ∈ (skipSpace text).head?, beginsPrimary c = false) :
    (primary nested).Fails text := by
  rw [primary_eq]
  refine spaced_fails ?_
  cases hskip : skipSpace text with
  | nil => exact ⟨[], rfl⟩
  | cons c cs =>
    rw [hskip] at h
    have hc := h c rfl
    simp only [beginsPrimary, Bool.or_eq_false_iff, decide_eq_false_iff_not] at hc
    obtain ⟨⟨⟨⟨⟨hminus, hdigit⟩, hletter⟩, hsingle⟩, hdouble⟩, hopen⟩ := hc
    rcases (alternatives nested).accepts_or_fails (c :: cs) with ⟨tree, rest, hok⟩ | hfails
    · rw [alternatives_sign hminus hdigit hletter hsingle hdouble] at hok
      obtain ⟨inner, heq, -⟩ := parenthesized_eq_ok.mp hok
      cases heq
      exact absurd rfl hopen
    · exact hfails

theorem unary_fails_of_head (h : ∀ c ∈ (skipSpace text).head?, beginsPrimary c = false)
    (hnot : notOperator.Fails (skipSpace text)) (count : Nat) :
    (unary nested count).Fails text := by
  have hprimary : (primary nested).Fails text := primary_fails_of_head h
  rwa [Parser.Fails, ← unary_of_primary hnot count] at hprimary

theorem unary_accepts_word (hw : IsWord w) (hrest : WordEnds rest) (count : Nat) :
    (unary nested count).Accepts (w ++ rest) := by
  have hprimary : (primary nested).Accepts (w ++ rest) := by
    suffices h : ∃ tree after, Primary nested (w ++ rest) tree after by
      obtain ⟨tree, after, h⟩ := h
      rw [← hw.skipSpace_append] at h
      exact ⟨tree, skipSpace after, primary_eq_ok.mpr ⟨after, h, rfl⟩⟩
    by_cases htrue : w.map Char.toLower = ['t', 'r', 'u', 'e']
    · exact ⟨_, _, .bool true hw hrest htrue⟩
    by_cases hfalse : w.map Char.toLower = ['f', 'a', 'l', 's', 'e']
    · exact ⟨_, _, .bool false hw hrest hfalse⟩
    rcases (call nested).accepts_or_fails (w ++ rest) with ⟨tree, after, hcall⟩ | hcall
    · exact ⟨_, _, .call hw hrest htrue hfalse hcall⟩
    · exact ⟨_, _, .ident hw hrest htrue hfalse hcall⟩
  cases count with
  | zero => exact hprimary
  | succ count => exact hprimary.orElse_right

end

end AutomationNet.Guard
