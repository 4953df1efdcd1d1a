import AutomationNet.Description.Basic
import AutomationNet.Text.Numeral

/-!
# Verbs and switches

The vocabulary of the command line: what can be done with a net, and the switches that say how. A
switch has a long name, and mostly a letter as well; some take a value.

* `Verb`, `Verb.name` : what can be done
* `Switch`, `Switch.long`, `Switch.short?` : the switches and their names
* `Switch.value` : the values that a switch takes
* `Switch.allowed` : the switches before the verb, or behind one
* `modeChoices` : the firing modes by the words for them
-/

namespace AutomationNet.CommandLine

inductive Verb where
  | check
  | simulate
  | codegen
  deriving DecidableEq, Repr

def Verb.name : Verb → String
  | .check => "check"
  | .simulate => "simulate"
  | .codegen => "codegen"

def Verb.all : List Verb := [.check, .simulate, .codegen]

def Verb.ofName? (name : String) : Option Verb := Verb.all.find? fun verb => verb.name == name

def modeChoices : List (String × FiringMode) :=
  [("classic", .classic), ("automation", .automation), ("visobj", .visObj)]

inductive ValueKind where
  | none
  | text
  | number
  | choice (words : List String)
  deriving DecidableEq, Repr

inductive Switch where
  | config
  | ticks
  | inputs
  /-- The firing mode, instead of the one that the net asks for. -/
  | mode
  | json
  | output
  | help
  | version
  deriving DecidableEq, Repr

namespace Switch

def long : Switch → String
  | .config => "config"
  | .ticks => "ticks"
  | .inputs => "inputs"
  | .mode => "mode"
  | .json => "json"
  | .output => "output"
  | .help => "help"
  | .version => "version"

def short? : Switch → Option Char
  | .config => some 'c'
  | .ticks => some 'n'
  | .inputs => some 'i'
  | .mode => some 'm'
  | .json => none
  | .output => some 'o'
  | .help => some 'h'
  | .version => some 'V'

def value : Switch → ValueKind
  | .config | .inputs | .output => .text
  | .ticks => .number
  | .mode => .choice (modeChoices.map (·.1))
  | .json | .help | .version => .none

def takesValue (s : Switch) : Bool := s.value != .none

/-- The switches allowed before the verb, or behind one. -/
def allowed : Option Verb → List Switch
  | none => [.config, .help, .version]
  | some .check => [.config, .help]
  | some .simulate => [.config, .ticks, .inputs, .mode, .json, .help]
  | some .codegen => [.config, .output, .help]

def ofLong? (verb : Option Verb) (name : String) : Option Switch :=
  (allowed verb).find? fun s => s.long == name

def ofShort? (verb : Option Verb) (letter : Char) : Option Switch :=
  (allowed verb).find? fun s => s.short? == some letter

end Switch

end AutomationNet.CommandLine
