import AutomationNet.CommandLine.Misuse

/-!
# Reading words

Words are read from left to right, first those before the verb, then those behind it. A switch that
takes a value has it attached, or as the next word unless that is a switch itself; it is settled,
its value being checked, when another switch or the net comes up, or at the end. Behind `--` no word
is a switch or a value.

* `Reading` : what has been read so far
* `Reading.settle` : checks and keeps the switch that is open
* `Reading.step` : reads one word that is no verb
* `Phrase`, `Phrase.read` : a verb with the words before and behind it
-/

namespace AutomationNet.CommandLine

/-- What has been read of the words before or behind the verb. -/
structure Reading where
  given : List (Switch × String) := []
  /-- A switch that is not settled yet, with its value if that has come. -/
  pending : Option (Switch × Option String) := none
  /-- No word is a switch any more. -/
  trailing : Bool := false
  net : Option String := none
  deriving DecidableEq, Repr

/-- The fault of a value, if it has one. -/
def Switch.fault? (s : Switch) (value : String) : Option Misuse :=
  match s.value with
  | .number => if (Numeral.nat64? value.toList).isNone then some (.badNumber s value) else none
  | .choice words => if value ∈ words then none else some (.badChoice s value)
  | _ => none

namespace Reading

def value? (r : Reading) (s : Switch) : Option String := r.given.lookup s

/-- The next word is the value of a switch, if it is no switch itself. -/
def awaiting (r : Reading) : Bool :=
  match r.pending with
  | some (_, none) => true
  | _ => false

def keep (r : Reading) (s : Switch) (value : String) : Except Refusal Reading :=
  if (r.value? s).isSome then .error (.misuse (.repeated s))
  else
    match s.fault? value with
    | some fault => .error (.misuse fault)
    | none => .ok { r with given := r.given ++ [(s, value)] }

def settle (r : Reading) : Except Refusal Reading :=
  match r.pending with
  | none => .ok r
  | some (s, none) => .error (.misuse (.noValue s))
  | some (s, some value) => { r with pending := none }.keep s value

/-- A switch that takes a value, which is attached or has to come. -/
def openSwitch (r : Reading) (s : Switch) (attached : Option String) : Except Refusal Reading := do
  let r ← r.settle
  match attached with
  | some value => r.keep s value
  | none => return { r with pending := some (s, none) }

def flag (verb : Option Verb) (r : Reading) (s : Switch) : Except Refusal Reading := do
  let r ← r.settle
  match s with
  | .help => .error (.help (verb.elim .program .verb))
  | .version => .error .version
  | s => r.keep s ""

/-- A word behind two dashes: a name, with a value behind the first equals sign. -/
def long (verb : Option Verb) (r : Reading) (text : List Char) : Except Refusal Reading :=
  let name := String.ofList (text.takeWhile (· ≠ '='))
  let attached := match text.dropWhile (· ≠ '=') with
    | [] => none
    | _ :: value => some (String.ofList value)
  match Switch.ofLong? verb name with
  | none => .error (.misuse (.unknownArgument ("--" ++ name)))
  | some s =>
    if s.takesValue then r.openSwitch s attached
    else
      match attached with
      | some value => .error (.misuse (.needlessValue s value))
      | none => r.flag verb s

/-- The value attached to a letter, with or without an equals sign. -/
def attachedTo : List Char → Option String
  | [] => none
  | '=' :: value => some (String.ofList value)
  | value => some (String.ofList value)

/-- The letters behind one dash, up to the first that takes a value. -/
def letters (verb : Option Verb) (r : Reading) : List Char → Except Refusal Reading
  | [] => .ok r
  | letter :: rest =>
    match Switch.ofShort? verb letter with
    | none => .error (.misuse (.unknownArgument (String.ofList ['-', letter])))
    | some s =>
      if s.takesValue then r.openSwitch s (attachedTo rest)
      else
        match r.flag verb s with
        | .ok r => letters verb r rest
        | .error refusal => .error refusal

/-- A word that is neither a switch nor a value: behind a verb the net, and one only. -/
def operand (verb : Option Verb) (r : Reading) (word : String) : Except Refusal Reading :=
  match verb with
  | some _ =>
    match r.net with
    | some _ => .error (.misuse (.unknownArgument word))
    | none => do
      let r ← r.settle
      return { r with net := some word }
  | none =>
    if r.trailing ∧ ((Verb.ofName? word).isSome ∨ word = "help") then
      .error (.misuse (.unknownArgument word))
    else .error (.misuse (.unknownVerb word))

/-- A word that may be the value of the open switch. -/
def plain (verb : Option Verb) (r : Reading) (word : String) : Except Refusal Reading :=
  match r.pending with
  | some (s, none) => .ok { r with pending := some (s, some word) }
  | _ => r.operand verb word

/-- One word that is no verb. A single dash is a plain word. -/
def step (verb : Option Verb) (r : Reading) (word : String) : Except Refusal Reading :=
  if r.trailing then r.operand verb word
  else
    match word.toList with
    | ['-', '-'] => .ok { r with trailing := true }
    | '-' :: '-' :: text => r.long verb text
    | ['-'] => r.plain verb word
    | '-' :: text => r.letters verb text
    | _ => r.plain verb word

end Reading

/-! ## Phrases -/

/-- A verb with what has been read before and behind it. -/
structure Phrase where
  verb : Verb
  net : String
  before : Reading
  behind : Reading
  deriving DecidableEq, Repr

namespace Phrase

def helpTopic : List String → Refusal
  | [] => .help .program
  | word :: rest =>
    let topic := if word = "help" then some Topic.help else (Verb.ofName? word).map .verb
    match topic, rest with
    | none, _ => .misuse (.unknownVerb word)
    | some topic, [] => .help topic
    | some _, next :: _ => .misuse (.unknownVerb next)

def readBehind (verb : Verb) (r : Reading) : List String → Except Refusal (String × Reading)
  | [] => do
    let r ← r.settle
    match r.net with
    | some net => return (net, r)
    | none => .error (.misuse .noNet)
  | word :: rest =>
    match r.step (some verb) word with
    | .ok r => readBehind verb r rest
    | .error refusal => .error refusal

/-- All words, from those before the verb. -/
def readFrom (r : Reading) : List String → Except Refusal Phrase
  | [] => do
    let _ ← r.settle
    .error (.misuse .noVerb)
  | word :: rest =>
    let verb? := if r.trailing || r.awaiting then none else Verb.ofName? word
    match verb? with
    | some verb => do
      let (net, behind) ← readBehind verb {} rest
      return { verb, net, before := ← r.settle, behind }
    | none =>
      if !r.trailing && !r.awaiting && word == "help" then .error (helpTopic rest)
      else
        match r.step none word with
        | .ok r => readFrom r rest
        | .error refusal => .error refusal

def read (words : List String) : Except Refusal Phrase := readFrom {} words

/-- The value of a switch, the one behind the verb counting first. -/
def value? (p : Phrase) (s : Switch) : Option String := (p.behind.value? s).or (p.before.value? s)

end Phrase

end AutomationNet.CommandLine
