import AutomationNet.CommandLine.Misuse
import AutomationNet.Net.Assembly
import AutomationNet.Net.Live
import AutomationNet.Text.Escaped

/-!
# Failures

The ways in which a command ends without having done its work.

* `Failure` : the failures
* `Failure.exitCode` : the status that the program ends with
* `Failure.message`, `Failure.cause?` : what is said about them
-/

namespace AutomationNet.CommandLine

inductive Failure where
  | misuse (fault : Misuse)
  /-- The preset flags have a quote that is never closed. -/
  | unsplitFlags
  | unreadableNet (path : String)
  | invalidNet (error : AssemblyError)
  | unreadableConfig (path : String)
  | malformedConfig (path : String)
  | unwritableProgram (path : String)
  | firing (error : FireError)
  | clockOverflow
  deriving DecidableEq, Repr

namespace Failure

def exitCode : Failure → UInt8
  | .misuse _ => 2
  | .clockOverflow => 101
  | _ => 1

def message : Failure → String
  | .misuse fault => fault.message
  | .unsplitFlags => "Failed to split PN_FLAGS"
  | .unreadableNet path => "Failed to load net: " ++ Escaped.quote path
  | .invalidNet error => "invalid element " ++ error.element
  | .unreadableConfig path => "Failed to read config file: " ++ Escaped.quote path
  | .malformedConfig path => "Failed to parse config file: " ++ Escaped.quote path
  | .unwritableProgram path => "Failed to write program: " ++ Escaped.quote path
  | .firing error => error.message
  | .clockOverflow => "overflow when adding durations"

/-- What is behind a failure. -/
def cause? : Failure → Option String
  | .invalidNet error => some error.message
  | _ => none

def text (failure : Failure) : String :=
  let start := match failure with
    | .misuse _ => "error: "
    | _ => "Error: "
  start ++ failure.message ++
    failure.cause?.elim "" fun cause => "\n\nCaused by:\n    " ++ cause

end Failure

end AutomationNet.CommandLine
