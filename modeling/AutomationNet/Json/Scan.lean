import AutomationNet.Json.Basic
import AutomationNet.Number.DecimalText
import AutomationNet.Text.Numeral

/-!
# Scanning JSON text

A text is scanned from left to right into a tree that reaches as far as the text can be read and
keeps the fault at which it stops. What a fault is depends on the reader: one that wants the values
refuses numbers beyond the doubles and unpaired surrogates, one that only skips them does not. The
tree keeps both answers, so that every reader finds its own first fault.

* `Json.Fault` : the text ends early, it is no JSON, or it is JSON of the wrong shape
* `Json.Scan` : the scanned tree
* `Json.scanNumber`, `Json.scanString`, `Json.scanValue` : the scanners; each gives what it read and
  the rest of the text, or no rest after a fault
* `Json.Scan.ofValue` : the tree of a value, which has no faults
-/

namespace AutomationNet.Json

inductive Fault where
  | ended
  /-- The text is not JSON, or goes on after the value. -/
  | malformed
  /-- The value read so far does not have the shape that is asked for. -/
  | mismatched
  deriving DecidableEq, Repr

inductive Scan where
  | null
  | bool (value : Bool)
  /-- A number, unless it lies beyond the doubles. -/
  | number (value : Option Number)
  /-- A string, unless it has an unpaired surrogate. -/
  | string (value : Option String)
  /-- An array and the fault met in place of a comma or its end. -/
  | array (items : List Scan) (ending : Option Fault)
  /-- An object and the fault met in place of a comma or its end; only strings can be keys. -/
  | object (members : List (Scan × Scan)) (ending : Option Fault)
  | missing
  /-- A string broken off, with the fault for one that wants it and for one that skips it. -/
  | brokenString (wanted skipped : Fault)
  | broken (wanted skipped : Fault)
  deriving Inhabited

/-- What was scanned and what is left, nothing being left after a fault. -/
abbrev Scanned := Scan × Option (List Char)

def isSpace (c : Char) : Bool := c = ' ' || c = '\n' || c = '\t' || c = '\r'

def skipSpace (text : List Char) : List Char := text.dropWhile isSpace

/-! ## Numbers -/

/-- The digits of a number that still fit into 64 bits, and how many were dropped after them. -/
structure Mantissa where
  value : Nat
  dropped : Nat

/-- Reads digits until one would not fit; that one and all after it are dropped. -/
def Mantissa.push (m : Mantissa) (digit : Char) : Mantissa :=
  let next := m.value * 10 + (digit.toNat - '0'.toNat)
  if m.dropped = 0 ∧ next ≤ Numeral.maxNat64 then ⟨next, 0⟩ else ⟨m.value, m.dropped + 1⟩

/-- Divides by `10 ^ 308` until the exponent is in reach of one division; a double has become zero
long before `steps` run out. -/
def scaleDown (steps : Nat) (x : Binary64) (exponent : Int) : Binary64 × Int :=
  match steps with
  | 0 => (x, exponent)
  | steps + 1 =>
    if x.isZero || -308 ≤ exponent then (x, exponent)
    else scaleDown steps (x.div (.ofNat (Nat.pow 10 308))) (exponent + 308)

/-- The mantissa is rounded, then multiplied or divided by a rounded power of ten. -/
def doubleOfParts (mantissa : Nat) (exponent : Int) : Option Binary64 :=
  let x := Binary64.ofNat mantissa
  if x.isZero then some x
  else if 308 < exponent then none
  else if 0 ≤ exponent then
    let y := x.mul (.ofNat (Nat.pow 10 exponent.toNat))
    if y.isInfinite then none else some y
  else
    let (y, left) := scaleDown 4 x exponent
    if y.isZero then some y else some (y.div (.ofNat (Nat.pow 10 (-left).toNat)))

def wholeNumber (negative : Bool) (m : Mantissa) : Option Number :=
  if m.dropped = 0 then
    if !negative then some (.whole m.value)
    else if 0 < m.value ∧ m.value ≤ 0x8000000000000000 then some (.whole (-(m.value : Int)))
    else some (.double ((Binary64.ofNat m.value).withSign true))
  else (doubleOfParts m.value m.dropped).map fun x => .double (x.withSign negative)

/-- The exponents that are counted; one beyond makes the number zero or too great. -/
def maxExponent : Nat := 0x7FFFFFFF

def doubleNumber (negative : Bool) (mantissa : Nat) (start : Int) (exponent : Int) :
    Option Number :=
  let value? :=
    if maxExponent < exponent.natAbs then
      if mantissa = 0 ∨ exponent < 0 then some Binary64.zero else none
    else doubleOfParts mantissa (start + exponent)
  value?.map fun x => .double (x.withSign negative)

def scanExponent (negative : Bool) (mantissa : Nat) (start : Int) (text : List Char) : Scanned :=
  let (minus, text) := Binary64.splitSign text
  let digits := text.takeWhile Char.isDigit
  let rest := text.dropWhile Char.isDigit
  if digits.isEmpty then
    (.broken (if rest.isEmpty then .ended else .malformed) .malformed, none)
  else
    let value : Nat := Binary64.digitsValue 0 digits
    (.number (doubleNumber negative mantissa start (if minus then -(value : Int) else value)),
      some rest)

def scanFraction (negative : Bool) (m : Mantissa) (text : List Char) : Scanned :=
  let digits := text.takeWhile Char.isDigit
  let rest := text.dropWhile Char.isDigit
  if digits.isEmpty then
    (.broken (if rest.isEmpty then .ended else .malformed) .malformed, none)
  else
    let all := digits.foldl Mantissa.push ⟨m.value, 0⟩
    let start : Int := m.dropped + all.dropped - digits.length
    match rest with
    | 'e' :: rest | 'E' :: rest => scanExponent negative all.value start rest
    | rest => (.number (doubleNumber negative all.value start 0), some rest)

/-- A number after its optional minus. -/
def scanUnsigned (negative : Bool) (text : List Char) : Scanned :=
  let digits := text.takeWhile Char.isDigit
  let rest := text.dropWhile Char.isDigit
  match digits with
  | [] => (.broken (if rest.isEmpty then .ended else .malformed) .malformed, none)
  | '0' :: _ :: _ => (.broken .malformed .malformed, none)
  | digits =>
    let m := digits.foldl Mantissa.push ⟨0, 0⟩
    match rest with
    | '.' :: rest => scanFraction negative m rest
    | 'e' :: rest | 'E' :: rest => scanExponent negative m.value m.dropped rest
    | rest => (.number (wholeNumber negative m), some rest)

/-! ## Strings -/

/-- A part of a string: a character, or a code unit given by an escape. -/
inductive Piece where
  | char (c : Char)
  | unit (code : Nat)

def escapeOf? : Char → Option Char
  | '"' => some '"'
  | '\\' => some '\\'
  | '/' => some '/'
  | 'b' => some '\x08'
  | 'f' => some '\x0c'
  | 'n' => some '\n'
  | 'r' => some '\r'
  | 't' => some '\t'
  | _ => none

def utf8Length (text : List Char) : Nat := text.foldr (fun c length => c.utf8Size + length) 0

/-- The pieces of a string after its opening quote, and what follows its closing one. -/
def scanPieces : List Char → List Piece × Except Fault (List Char)
  | [] => ([], .error .ended)
  | '"' :: rest => ([], .ok rest)
  | ['\\'] => ([], .error .ended)
  | '\\' :: 'u' :: a :: b :: c :: d :: rest =>
    match Numeral.hex? [a, b, c, d] with
    | some n =>
      let (pieces, stop) := scanPieces rest
      (.unit n :: pieces, stop)
    | none => ([], .error (if utf8Length (a :: b :: c :: d :: rest) < 4 then .ended else .malformed))
  | '\\' :: 'u' :: rest => ([], .error (if utf8Length rest < 4 then .ended else .malformed))
  | '\\' :: e :: rest =>
    match escapeOf? e with
    | some c =>
      let (pieces, stop) := scanPieces rest
      (.char c :: pieces, stop)
    | none => ([], .error .malformed)
  | c :: rest =>
    if c.toNat < 0x20 then ([], .error .malformed)
    else
      let (pieces, stop) := scanPieces rest
      (.char c :: pieces, stop)

def isLeading (code : Nat) : Bool := 0xd800 ≤ code && code ≤ 0xdbff

def isTrailing (code : Nat) : Bool := 0xdc00 ≤ code && code ≤ 0xdfff

/-- The characters that pieces spell, a leading and a trailing surrogate making one. -/
def decodePieces : List Piece → Option (List Char)
  | [] => some []
  | .char c :: rest => (decodePieces rest).map (c :: ·)
  | .unit n :: rest =>
    if isTrailing n then none
    else if isLeading n then
      match rest with
      | .unit m :: rest =>
        if isTrailing m then
          (decodePieces rest).map
            (Char.ofNat (0x10000 + (n - 0xd800) * 0x400 + (m - 0xdc00)) :: ·)
        else none
      | _ => none
    else (decodePieces rest).map (Char.ofNat n :: ·)

/-- The pieces before a fault spell no string either way: an unpaired surrogate among them is the
first fault for one that wants it, except for a leading one that the fault cut off. -/
def unpairedBefore : List Piece → Bool
  | [] => false
  | .char _ :: rest => unpairedBefore rest
  | .unit n :: rest =>
    if isTrailing n then true
    else if isLeading n then
      match rest with
      | [] => false
      | .unit m :: rest => !isTrailing m || unpairedBefore rest
      | .char _ :: _ => true
    else unpairedBefore rest

def scanString (text : List Char) : Scanned :=
  match scanPieces text with
  | (pieces, .ok rest) => (.string ((decodePieces pieces).map String.ofList), some rest)
  | (pieces, .error fault) =>
    (.brokenString (if unpairedBefore pieces then .malformed else fault) fault, none)

/-! ## Values -/

/-- The rest of a word that must follow. -/
def scanWord (word : List Char) (value : Scan) (text : List Char) : Scanned :=
  match word, text with
  | [], text => (value, some text)
  | _ :: _, [] => (.broken .ended .ended, none)
  | w :: word, c :: text =>
    if w = c then scanWord word value text else (.broken .malformed .malformed, none)

mutual

/-- A value. The budget bounds how many values, items and members are opened inside one another or
follow each other; a bracket opens two of them, so twice the length of the text and one more is
never used up. -/
def scanValue (budget : Nat) (text : List Char) : Scanned :=
  match budget with
  | 0 => (.missing, none)
  | budget + 1 =>
    match skipSpace text with
    | [] => (.missing, none)
    | 'n' :: rest => scanWord ['u', 'l', 'l'] .null rest
    | 't' :: rest => scanWord ['r', 'u', 'e'] (.bool true) rest
    | 'f' :: rest => scanWord ['a', 'l', 's', 'e'] (.bool false) rest
    | '"' :: rest => scanString rest
    | '-' :: rest => scanUnsigned true rest
    | '[' :: rest =>
      match skipSpace rest with
      | ']' :: rest => (.array [] none, some rest)
      | rest =>
        if rest.isEmpty then (.array [] (some .ended), none)
        else
          let (items, ending, rest) := scanItems budget rest
          (.array items ending, rest)
    | '\x7b' :: rest =>
      match skipSpace rest with
      | '\x7d' :: rest => (.object [] none, some rest)
      | rest =>
        if rest.isEmpty then (.object [] (some .ended), none)
        else
          let (members, ending, rest) := scanMembers budget rest
          (.object members ending, rest)
    | c :: rest => if c.isDigit then scanUnsigned false (c :: rest) else (.broken .malformed .malformed, none)

/-- The items of an array from one item on. -/
def scanItems (budget : Nat) (text : List Char) :
    List Scan × Option Fault × Option (List Char) :=
  match budget with
  | 0 => ([], none, none)
  | budget + 1 =>
    match scanValue budget text with
    | (item, none) => ([item], none, none)
    | (item, some rest) =>
      match skipSpace rest with
      | ']' :: rest => ([item], none, some rest)
      | ',' :: rest =>
        match skipSpace rest with
        | ']' :: _ => ([item, .broken .malformed .malformed], none, none)
        | rest =>
          let (items, ending, rest) := scanItems budget rest
          (item :: items, ending, rest)
      | [] => ([item], some .ended, none)
      | _ => ([item], some .malformed, none)

def scanMembers (budget : Nat) (text : List Char) :
    List (Scan × Scan) × Option Fault × Option (List Char) :=
  match budget with
  | 0 => ([], none, none)
  | budget + 1 =>
    match text with
    | [] => ([(.missing, .missing)], none, none)
    | '"' :: rest =>
      match scanString rest with
      | (key, none) => ([(key, .missing)], none, none)
      | (key, some rest) =>
        match skipSpace rest with
        | [] => ([(key, .missing)], none, none)
        | ':' :: rest =>
          match scanValue budget rest with
          | (value, none) => ([(key, value)], none, none)
          | (value, some rest) =>
            match skipSpace rest with
            | '\x7d' :: rest => ([(key, value)], none, some rest)
            | ',' :: rest =>
              let (members, ending, rest) := scanMembers budget (skipSpace rest)
              ((key, value) :: members, ending, rest)
            | [] => ([(key, value)], some .ended, none)
            | _ => ([(key, value)], some .malformed, none)
        | _ => ([(key, .broken .malformed .malformed)], none, none)
    | _ => ([(.broken .malformed .malformed, .missing)], none, none)

end

/-- The tree of a text and what follows its value. -/
def scan (text : List Char) : Scanned := scanValue (2 * text.length + 1) text

mutual

def Scan.ofValue : Json → Scan
  | .null => .null
  | .bool b => .bool b
  | .number n => .number (some n)
  | .string s => .string (some s)
  | .array items => .array (Scan.ofItems items) none
  | .object members => .object (Scan.ofMembers members) none

def Scan.ofItems : List Json → List Scan
  | [] => []
  | item :: rest => .ofValue item :: Scan.ofItems rest

def Scan.ofMembers : List (String × Json) → List (Scan × Scan)
  | [] => []
  | (key, value) :: rest => (.string (some key), .ofValue value) :: Scan.ofMembers rest

end

end AutomationNet.Json
