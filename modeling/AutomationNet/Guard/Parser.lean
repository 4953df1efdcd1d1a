import AutomationNet.Guard.Syntax
import AutomationNet.Number.DecimalText

/-!
# The guard grammar

The grammar, words in any case:

* `or` : `and` (("or" | "||") `and`)*
* `and` : `comparison` (("and" | "&&") `comparison`)*
* `comparison` : `unary` (operator `unary`)?
* `unary` : ("not" | "!") `unary` | `primary`
* `primary` : number | "true" | "false" | string | name "(" arguments ")" | name | "(" `or` ")"

A parser gives what it read and the rest of the text, or the rest at which it failed. Alternatives
are tried in order and fail where the last one fails; what may be absent or repeated leaves the
text as it was when it fails. An expression inside parentheses is a parameter of the parsers of
this module, so that `expression n` is the grammar with parentheses nested less than `n` deep;
a text cannot nest them deeper than it is long.

* `Guard.Parser` : the parsers
* `Guard.expression` : the grammar up to a depth
* `Guard.parse` : the tree of a whole text, or where the text stops being a guard
-/

namespace AutomationNet.Guard

/-- Gives what it read and the rest of the text, or the rest at which it failed. -/
abbrev Parser (α : Type) := List Char → Except (List Char) (α × List Char)

namespace Parser

def orElse (p q : Parser α) : Parser α := fun text =>
  match p text with
  | .ok result => .ok result
  | .error _ => q text

def map (f : α → β) (p : Parser α) : Parser β := fun text =>
  match p text with
  | .ok (a, rest) => .ok (f a, rest)
  | .error stop => .error stop

def pair (p : Parser α) (q : Parser β) : Parser (α × β) := fun text =>
  match p text with
  | .ok (a, rest) =>
    match q rest with
    | .ok (b, rest) => .ok ((a, b), rest)
    | .error stop => .error stop
  | .error stop => .error stop

/-- Folds over as many repetitions as there are, at most `count`. -/
def fold (p : Parser β) (f : α → β → α) : Nat → α → List Char → α × List Char
  | 0, start, text => (start, text)
  | count + 1, start, text =>
    match p text with
    | .ok (b, rest) => fold p f count (f start b) rest
    | .error _ => (start, text)

end Parser

/-! ## Characters and words -/

def isSpace (c : Char) : Bool := c = ' ' || c = '\t' || c = '\r' || c = '\n'

def skipSpace (text : List Char) : List Char := text.dropWhile isSpace

def spaced (p : Parser α) : Parser α := fun text =>
  match p (skipSpace text) with
  | .ok (a, rest) => .ok (a, skipSpace rest)
  | .error stop => .error stop

def literal (word : List Char) : Parser Unit := fun text =>
  if word.isPrefixOf text then .ok ((), text.drop word.length) else .error text

def isLetter (c : Char) : Bool := c.isAlpha || c = '_'

def isWordChar (c : Char) : Bool := c.isAlphanum || c = '_'

/-- A name: a letter or underscore and as many letters, digits and underscores as there are. -/
def word : Parser (List Char)
  | [] => .error []
  | c :: rest =>
    if isLetter c then .ok (c :: rest.takeWhile isWordChar, rest.dropWhile isWordChar)
    else .error (c :: rest)

/-- A given word in any case, which must not be part of a longer one. -/
def keyword (expected : List Char) : Parser Unit := fun text =>
  match word text with
  | .ok (found, rest) => if found.map Char.toLower = expected then .ok ((), rest) else .error text
  | .error stop => .error stop

/-! ## Leaves -/

/-- The digits of a number: an optional minus, digits, and a point only with digits after it. -/
def numberParts? (text : List Char) : Option (Bool × List Char × List Char × List Char) :=
  let (negative, unsigned) := match text with
    | '-' :: rest => (true, rest)
    | rest => (false, rest)
  let whole := unsigned.takeWhile Char.isDigit
  let rest := unsigned.dropWhile Char.isDigit
  if whole.isEmpty then none
  else
    match rest with
    | '.' :: after =>
      let fraction := after.takeWhile Char.isDigit
      if fraction.isEmpty then some (negative, whole, [], rest)
      else some (negative, whole, fraction, after.dropWhile Char.isDigit)
    | rest => some (negative, whole, [], rest)

/-- A number, which must not run straight into a word. -/
def number : Parser Syntax := fun text =>
  match numberParts? text with
  | none => .error text
  | some (negative, whole, fraction, rest) =>
    if (rest.head?.map isWordChar).getD false then .error rest
    else
      let value := Binary64.ofDecimal (Binary64.digitsValue 0 (whole ++ fraction))
        (-(fraction.length : Int))
      .ok (.number (value.withSign negative), rest)

def boolLiteral : Parser Syntax :=
  .orElse (.map (fun _ => .bool true) (keyword ['t', 'r', 'u', 'e']))
    (.map (fun _ => .bool false) (keyword ['f', 'a', 'l', 's', 'e']))

/-- A text between two quotes of the given kind. -/
def quotedBy (quote : Char) : Parser Syntax
  | [] => .error []
  | c :: rest =>
    if c = quote then
      match rest.dropWhile (· ≠ quote) with
      | _ :: after => .ok (.string (String.ofList (rest.takeWhile (· ≠ quote))), after)
      | [] => .error []
    else .error (c :: rest)

def stringLiteral : Parser Syntax := .orElse (quotedBy '\'') (quotedBy '"')

def ident : Parser Syntax := .map (fun name => .ident (String.ofList name)) word

/-! ## The levels of the grammar

`nested` parses what stands in parentheses. -/

/-- The arguments of a call, possibly none. -/
def arguments (nested : Parser Syntax) (text : List Char) : List Syntax × List Char :=
  match nested text with
  | .error _ => ([], text)
  | .ok (first, rest) =>
    let more := (Parser.pair (spaced (literal [','])) nested).map Prod.snd
    more.fold (fun args arg => args ++ [arg]) text.length [first] rest

def call (nested : Parser Syntax) : Parser Syntax := fun text => do
  let (name, rest) ← word text
  let ((), rest) ← spaced (literal ['(']) rest
  let (args, rest) := arguments nested rest
  let ((), rest) ← spaced (literal [')']) rest
  return (.call (String.ofList name) args, rest)

def parenthesized (nested : Parser Syntax) : Parser Syntax := fun text => do
  let ((), rest) ← literal ['('] text
  let (inner, rest) ← nested rest
  let ((), rest) ← literal [')'] rest
  return (inner, rest)

def primary (nested : Parser Syntax) : Parser Syntax :=
  spaced (number.orElse (boolLiteral.orElse (stringLiteral.orElse ((call nested).orElse
    (ident.orElse (parenthesized nested))))))

/-- The word `not`, or an exclamation mark that does not begin an operator. -/
def notOperator : Parser Unit :=
  .orElse (keyword ['n', 'o', 't']) fun
    | '!' :: '=' :: rest => .error ('=' :: rest)
    | '!' :: rest => .ok ((), rest)
    | text => .error text

/-- A primary expression under at most `count` negations. -/
def unary (nested : Parser Syntax) : Nat → Parser Syntax
  | 0 => primary nested
  | count + 1 =>
    .orElse (.map (fun parts => .not parts.2) (.pair (spaced notOperator) (unary nested count)))
      (primary nested)

/-- The spellings of the comparisons, longer ones before those they begin with. -/
def comparisonTable : List (List Char × Comparison) :=
  [(['>', '='], .ge), (['<', '='], .le), (['<', '>'], .ne), (['!', '=', '='], .ne),
    (['!', '='], .ne), (['=', '=', '='], .eq), (['=', '='], .eq), (['='], .eq), (['>'], .gt),
    (['<'], .lt)]

def comparisonOperator : Parser Comparison := fun text =>
  match comparisonTable.find? fun entry => entry.1.isPrefixOf text with
  | some (spelling, op) => .ok (op, text.drop spelling.length)
  | none => .error text

/-- One operand, or two with a comparison between them. -/
def comparison (nested : Parser Syntax) : Parser Syntax := fun text =>
  let operand : Parser Syntax := fun text => unary nested text.length text
  match operand text with
  | .error stop => .error stop
  | .ok (left, rest) =>
    match (Parser.pair (spaced comparisonOperator) operand) rest with
    | .ok ((op, right), rest) => .ok (.compare op left right, rest)
    | .error _ => .ok (left, rest)

/-- Operands joined by a connective, grouped to the left. -/
def joined (connective : Parser Unit) (join : Syntax → Syntax → Syntax) (operand : Parser Syntax) :
    Parser Syntax := fun text =>
  match operand text with
  | .error stop => .error stop
  | .ok (first, rest) =>
    .ok (((Parser.pair (spaced connective) operand).map Prod.snd).fold join text.length first rest)

def conjunction (nested : Parser Syntax) : Parser Syntax :=
  joined (.orElse (literal ['&', '&']) (keyword ['a', 'n', 'd'])) .and (comparison nested)

def disjunction (nested : Parser Syntax) : Parser Syntax :=
  joined (.orElse (literal ['|', '|']) (keyword ['o', 'r'])) .or (conjunction nested)

/-- An expression whose parentheses are nested less than `depth` deep. -/
def expression : Nat → Parser Syntax
  | 0 => fun text => .error text
  | depth + 1 => disjunction (expression depth)

/-! ## Whole texts -/

/-- Where a text stops being a guard: the number of bytes before, and the text from there on. -/
structure ParseFailure where
  offset : Nat
  rest : String
  deriving DecidableEq, Repr

def byteLength (text : List Char) : Nat := text.foldr (fun c length => c.utf8Size + length) 0

/-- The tree of a text, or the rest of the text that is no guard. -/
def parseChars (text : List Char) : Except (List Char) Syntax :=
  match spaced (expression (text.length + 1)) text with
  | .ok (tree, []) => .ok tree
  | .ok (_, rest) => .error rest
  | .error rest => .error rest

def parse (text : String) : Except ParseFailure Syntax :=
  (parseChars text.toList).mapError fun rest =>
    ⟨byteLength text.toList - byteLength rest, String.ofList rest⟩

end AutomationNet.Guard
