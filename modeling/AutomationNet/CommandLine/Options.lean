import AutomationNet.CommandLine.Reading
import AutomationNet.CommandLine.Words

/-!
# Options

What the words of a command line ask for: the action, the net it is done with and the settings.

* `Action`, `Options` : what is asked for
* `Options.ofWords` : the options that words spell
* `Options.ofLine` : the same for the words of a line
-/

namespace AutomationNet.CommandLine

inductive Action where
  /-- Assemble the net and tell its first fault. -/
  | check
  /-- Run the net without a renderer and tell about every tick. -/
  | simulate (ticks : Nat) (inputs : Option String) (mode : Option FiringMode) (json : Bool)
  /-- Write the program of the net. -/
  | codegen (output : Option String)
  deriving DecidableEq, Repr

structure Options where
  action : Action
  net : String
  config : String
  deriving DecidableEq, Repr

inductive LineError where
  | mismatchedQuotes
  | refused (refusal : Refusal)
  deriving DecidableEq, Repr

namespace Options

/-- The settings unless a file is named. -/
def defaultConfig : String := "pn.toml"

def defaultTicks : Nat := 100

def actionOf (p : Phrase) : Action :=
  match p.verb with
  | .check => .check
  | .simulate =>
    .simulate (((p.value? .ticks).bind fun text => Numeral.nat64? text.toList).getD defaultTicks)
      (p.value? .inputs) ((p.value? .mode).bind fun word => modeChoices.lookup word)
      (p.value? .json).isSome
  | .codegen => .codegen (p.value? .output)

def ofPhrase (p : Phrase) : Options where
  action := actionOf p
  net := p.net
  config := (p.value? .config).getD defaultConfig

def ofWords (words : List String) : Except Refusal Options := (Phrase.read words).map ofPhrase

def ofLine (line : String) : Except LineError Options :=
  match words? line with
  | none => .error .mismatchedQuotes
  | some words => (ofWords words).mapError .refused

end Options

end AutomationNet.CommandLine
