import AutomationNet.CommandLine.Switch

/-!
# Misuse

The ways in which words fail to say what is to be done.

* `Misuse`, `Misuse.message` : the faults and their texts
* `Topic` : what help is asked for
* `Refusal` : why words are not carried out: help or the version is asked for, or they are misused
-/

namespace AutomationNet.CommandLine

inductive Misuse where
  | noVerb
  | unknownVerb (word : String)
  | unknownArgument (word : String)
  | noNet
  /-- A switch whose value does not come. -/
  | noValue (switch : Switch)
  | badChoice (switch : Switch) (value : String)
  | badNumber (switch : Switch) (value : String)
  /-- A value for a switch that takes none. -/
  | needlessValue (switch : Switch) (value : String)
  | repeated (switch : Switch)
  deriving DecidableEq, Repr

namespace Misuse

def message : Misuse → String
  | .noVerb => "'pn' requires a subcommand but one was not provided"
  | .unknownVerb word => "unrecognized subcommand '" ++ word ++ "'"
  | .unknownArgument word => "unexpected argument '" ++ word ++ "' found"
  | .noNet => "the following required arguments were not provided:\n  <NET>"
  | .noValue s => "a value is required for '--" ++ s.long ++ "' but none was supplied"
  | .badChoice s value => "invalid value '" ++ value ++ "' for '--" ++ s.long ++ "'"
  | .badNumber s value => "invalid value '" ++ value ++ "' for '--" ++ s.long ++ "'"
  | .needlessValue s value => "unexpected value '" ++ value ++ "' for '--" ++ s.long ++ "' found"
  | .repeated s => "the argument '--" ++ s.long ++ "' cannot be used multiple times"

end Misuse

/-- What help is asked for. -/
inductive Topic where
  | program
  | verb (verb : Verb)
  | help
  deriving DecidableEq, Repr

/-- Why words are not carried out. -/
inductive Refusal where
  | help (topic : Topic)
  | version
  | misuse (fault : Misuse)
  deriving DecidableEq, Repr

end AutomationNet.CommandLine
