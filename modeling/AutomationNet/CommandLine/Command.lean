import AutomationNet.CommandLine.Failure
import AutomationNet.CommandLine.Help
import AutomationNet.CommandLine.Options
import AutomationNet.Description.File
import AutomationNet.Settings
import AutomationNet.Simulation.Drawing
import AutomationNet.Simulation.InputFile
import AutomationNet.Simulation.Run
import AutomationNet.StructuredText.Program

/-!
# Commands

What the program does, over whatever gives it files and takes its output.

* `Host` : files, output and time, in some monad
* `loadSettings`, `loadNet` : the files that a command starts from
* `Viewing` : a session while its reports are printed
* `Command.run` : the whole program
-/

namespace AutomationNet.CommandLine

inductive ReadFault where
  | missing
  | unreadable
  deriving DecidableEq, Repr

/-- What the program asks of its surroundings. -/
structure Host (m : Type → Type) where
  read : String → m (Except ReadFault String)
  /-- Writes a file and tells whether that has succeeded. -/
  write : String → String → m Bool
  print : String → m Unit
  wait : Duration → m Unit
  /-- A number to start drawing from if no seed is set. -/
  entropy : m Nat

variable {m : Type → Type} [Monad m]

/-- The settings in a file, or those that hold if it is missing. -/
def loadSettings (host : Host m) (path : String) : ExceptT Failure m Settings := do
  match ← host.read path with
  | .error .missing => return {}
  | .error .unreadable => throw (.unreadableConfig path)
  | .ok text => (Settings.parse? text).elim (throw (.malformedConfig path)) pure

def loadNet (host : Host m) (path : String) : ExceptT Failure m Net := do
  match ← host.read path with
  | .error _ => throw (.unreadableNet path)
  | .ok text =>
    match NetDescription.read text (.ofPath path) with
    | .error _ => throw (.unreadableNet path)
    | .ok description =>
      match Net.assemble description with
      | .error error => throw (.invalidNet error)
      | .ok net => return net

/-! ## Sessions -/

structure Viewing where
  ticks : Nat
  /-- The file with the values of the inputs. -/
  inputs : Option String
  json : Bool
  settings : Settings

namespace Viewing

def line (v : Viewing) (report : TickReport) : String :=
  if v.json then report.line else report.text

/-- The values of the inputs at the next reading, given those of the last one. -/
def readInputs (v : Viewing) (host : Host m) (last : InputValues) : m InputValues :=
  match v.inputs with
  | none => pure last
  | some path => do
    match ← host.read path with
    | .ok text => return last.reread (some text)
    | .error _ => return last.reread none

/-- How long a tick with some firings is shown. Under `visObj` they are shown together. -/
def pace (v : Viewing) (mode : FiringMode) (firings : Nat) : Duration :=
  (if mode = .visObj then min firings 1 else firings) * v.settings.animation + v.settings.pause

/-- The order in which the next tick visits the transitions. -/
def order (net : Net) (generator : StdGen) : List (Ref Transition) × StdGen :=
  match net.simulation.priorityMode with
  | .fixed => (net.order, generator)
  | .random => Drawing.shuffle generator net.order

/-- Shows a tick, prints its report and stops the session if it is the last one. -/
def hand (v : Viewing) (host : Host m) (run : Run) (report : TickReport) : m Run := do
  host.wait (v.pace run.session.policy.mode report.fired.length)
  host.print (v.line report)
  return if v.ticks ≤ report.tick then { run with control := run.control.apply .stop } else run

/-- Follows a run for so many steps of its loop. -/
def follow (v : Viewing) (host : Host m) :
    Nat → StdGen → InputValues → Run → ExceptT Failure m Unit
  | 0, _, _, _ => return
  | budget + 1, generator, last, run => do
    match run.point with
    | .ticking _ =>
      let (order, generator) := order run.session.net generator
      let values ← ExceptT.lift (v.readInputs host last)
      match run.next? order values with
      | none => return
      | some next => follow v host budget generator values next
    | point =>
      let run ← match point, run.report with
        | .reporting, some report => ExceptT.lift (v.hand host run report)
        | _, _ => pure run
      match run.next? run.session.net.order last with
      | some next => follow v host budget generator last next
      | none =>
        match run.failure with
        | some (.fire error) => throw (.firing error)
        | some .clockOverflow => throw .clockOverflow
        | none => return

/-- A tick takes the loop three steps, and starting and ending it less than eight. -/
def budget (v : Viewing) : Nat := 4 * v.ticks + 8

def run (v : Viewing) (host : Host m) (net : Net) (mode : FiringMode) :
    ExceptT Failure m Unit := do
  let seed ← match v.settings.seed with
    | some seed => pure seed
    | none => host.entropy
  let values ← ExceptT.lift (v.readInputs host (.ofDeclared net.inputs))
  let session := Session.start net mode values v.settings.cycle
  let control := Control.apply {} (if v.ticks = 0 then .stop else .start)
  v.follow host v.budget (mkStdGen seed) values { session, control }

end Viewing

/-! ## The program -/

namespace Command

def perform (host : Host m) (options : Options) : ExceptT Failure m Unit := do
  match options.action with
  | .check =>
    let net ← loadNet host options.net
    host.print (options.net ++ ": " ++ Numeral.ofNat net.places.size ++ " places, " ++
      Numeral.ofNat net.transitions.size ++ " transitions, " ++ Numeral.ofNat net.arcs.size ++
      " arcs")
  | .simulate ticks inputs mode json =>
    let settings ← loadSettings host options.config
    let net ← loadNet host options.net
    Viewing.run { ticks, inputs, json, settings } host net (mode.getD net.simulation.mode)
  | .codegen output =>
    let net ← loadNet host options.net
    match output with
    | none => host.print net.program
    | some path =>
      if !(← host.write path net.program) then throw (.unwritableProgram path)

def run (host : Host m) (flags : String) (arguments : List String) : ExceptT Failure m Unit := do
  match words? flags with
  | none => throw .unsplitFlags
  | some preset =>
    match Options.ofWords (preset ++ arguments) with
    | .ok options => perform host options
    | .error (.help topic) => host.print topic.text
    | .error .version => host.print versionText
    | .error (.misuse fault) => throw (.misuse fault)

end Command

end AutomationNet.CommandLine
