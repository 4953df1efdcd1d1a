import AutomationNet.Guard.Syntax
import AutomationNet.Text.Numeral

/-!
# Checked guard expressions

Checking binds every name to the position of a declared input and every call to an edge of one; what
remains can be evaluated on any values of the inputs.

* `Guard.Error` : what can be wrong with a guard, and its message
* `Guard.Expr` : the checked expressions
* `Guard.resolve` : checking, which stops at the first fault from the left
* `Guard.Snapshot` : the current and the previous values of the inputs
* `Guard.Expr.eval` : evaluation on a snapshot
* `Guard.Expr.edges` : the edge calls from left to right
-/

namespace AutomationNet.Guard

inductive Error where
  /-- The text is no expression from a column of bytes on, counted from one. -/
  | ungrammatical (guard : String) (column : Nat)
  | undefinedInput (name : String)
  | notCallable (function : String)
  /-- A call without a single quoted argument. -/
  | edgeArgument (function : String)
  | invalidEdgeInput (function input : String)
  | unexpectedString (text : String)
  deriving DecidableEq, Repr

namespace Error

def message : Error → String
  | .ungrammatical guard column =>
    "syntax error at column " ++ Numeral.ofNat column ++ " of \"" ++ guard ++ "\""
  | .undefinedInput name => "the input \"" ++ name ++ "\" was not defined"
  | .notCallable function => "\"" ++ function ++ "\" is not callable"
  | .edgeArgument function => "\"" ++ function ++ "\" expects a single quoted input name"
  | .invalidEdgeInput function input =>
    "the input of a \"" ++ function ++ "\" call must be a net input name, got \"" ++ input ++ "\""
  | .unexpectedString text => "unexpected string literal '" ++ text ++ "'"

/-- The name the error is about, if it is about one. -/
def identifier : Error → Option String
  | .undefinedInput name => some name
  | .notCallable name => some name
  | .edgeArgument name => some name
  | .invalidEdgeInput _ input => some input
  | .ungrammatical _ _ => none
  | .unexpectedString _ => none

end Error

/-- The edge of an input that a call watches. -/
inductive EdgeKind where
  | rising
  | falling
  deriving DecidableEq, Repr

namespace EdgeKind

def function : EdgeKind → String
  | .rising => "rt"
  | .falling => "ft"

def ofFunction? (name : String) : Option EdgeKind :=
  if name = "rt" then some .rising else if name = "ft" then some .falling else none

end EdgeKind

/-- A checked expression, in which inputs have their name and their position. -/
inductive Expr where
  | bool (value : Bool)
  | number (value : Binary64)
  | input (name : String) (index : Nat)
  | edge (kind : EdgeKind) (name : String) (index : Nat)
  | not (inner : Expr)
  | and (left right : Expr)
  | or (left right : Expr)
  | compare (op : Comparison) (left right : Expr)
  deriving DecidableEq, Repr, Inhabited

/-- A call, judged by its function, then by the form of its arguments, then by the input. -/
def resolveCall (inputs : List String) (function : String) (arguments : List Syntax) :
    Except Error Expr :=
  match EdgeKind.ofFunction? function with
  | none => .error (.notCallable function)
  | some kind =>
    match arguments with
    | [.string name] =>
      match inputs.idxOf? name with
      | some index => .ok (.edge kind name index)
      | none => .error (.invalidEdgeInput function name)
    | _ => .error (.edgeArgument function)

/-- Checks an expression against the declared inputs. -/
def resolve (inputs : List String) : Syntax → Except Error Expr
  | .bool value => .ok (.bool value)
  | .number value => .ok (.number value)
  | .string text => .error (.unexpectedString text)
  | .ident name =>
    match inputs.idxOf? name with
    | some index => .ok (.input name index)
    | none => .error (.undefinedInput name)
  | .call function arguments => resolveCall inputs function arguments
  | .not inner => do return .not (← resolve inputs inner)
  | .and left right => do return .and (← resolve inputs left) (← resolve inputs right)
  | .or left right => do return .or (← resolve inputs left) (← resolve inputs right)
  | .compare op left right => do
    return .compare op (← resolve inputs left) (← resolve inputs right)

/-! ## Evaluation -/

/-- The values of the inputs now and before, by position; an input out of range is `0`. -/
structure Snapshot where
  current : List Binary64
  previous : List Binary64

namespace Snapshot

def value (s : Snapshot) (index : Nat) : Binary64 := s.current.getD index .zero

def before (s : Snapshot) (index : Nat) : Binary64 := s.previous.getD index .zero

/-- The input has become true. -/
def rises (s : Snapshot) (index : Nat) : Bool := (s.value index).truthy && !(s.before index).truthy

/-- The input has become false. -/
def falls (s : Snapshot) (index : Nat) : Bool := (s.before index).truthy && !(s.value index).truthy

/-- Whether an edge of the given kind shows at an input. -/
def edge (s : Snapshot) : EdgeKind → Nat → Bool
  | .rising => s.rises
  | .falling => s.falls

end Snapshot

inductive Value where
  | bool (value : Bool)
  | number (value : Binary64)
  deriving DecidableEq, Repr

namespace Value

def truthy : Value → Bool
  | .bool b => b
  | .number x => x.truthy

def toNumber : Value → Binary64
  | .bool b => .ofBool b
  | .number x => x

end Value

namespace Expr

def eval (s : Snapshot) : Expr → Value
  | .bool b => .bool b
  | .number x => .number x
  | .input _ index => .number (s.value index)
  | .edge kind _ index => .bool (s.edge kind index)
  | .not inner => .bool (!(inner.eval s).truthy)
  | .and left right => .bool ((left.eval s).truthy && (right.eval s).truthy)
  | .or left right => .bool ((left.eval s).truthy || (right.eval s).truthy)
  | .compare op left right => .bool (op.holds (left.eval s).toNumber (right.eval s).toNumber)

/-- The edge calls from left to right, with their repetitions. -/
def edges : Expr → List (EdgeKind × String)
  | .bool _ => []
  | .number _ => []
  | .input _ _ => []
  | .edge kind name _ => [(kind, name)]
  | .not inner => inner.edges
  | .and left right => left.edges ++ right.edges
  | .or left right => left.edges ++ right.edges
  | .compare _ left right => left.edges ++ right.edges

end Expr

end AutomationNet.Guard
