import AutomationNet.StructuredText.Arc
import AutomationNet.StructuredText.Expression

/-!
# Structured-text programs

The program that does on every scan of a controller what one tick of the `Automation` policy does:
it clocks the edge triggers, then visits the transitions by priority. It is made from the net alone
and does not depend on marks or timers.

* `StructuredText.Program` : declarations, triggers and one block for each transition
* `Program.ofNet` : the program of a net
* `Program.declared` : the identifiers it declares
* `Program.render` : its text
* `Net.program` : the text for a net
-/

namespace AutomationNet

namespace StructuredText

open Guard (EdgeKind Expr)

structure Declaration where
  name : String
  type : String
  initial : Option String := none
  deriving DecidableEq, Repr

def Declaration.text (d : Declaration) : String :=
  "    " ++ d.name ++ ": " ++ d.type ++ (d.initial.map (" := " ++ ·)).getD "" ++ ";"

/-- A block that watches an edge of an input. -/
structure Trigger where
  kind : EdgeKind
  input : String
  deriving DecidableEq, Repr

namespace Trigger

def name (t : Trigger) : String := triggerName t.kind t.input

def declaration (t : Trigger) : Declaration := ⟨t.name, triggerType t.kind, none⟩

/-- The call that clocks the trigger with its input. -/
def call (t : Trigger) : String := t.name ++ "(CLK := " ++ t.input ++ ");"

end Trigger

/-- A delay in seconds and milliseconds, leaving out what is zero. -/
def timeLiteral (delay : Duration) : String :=
  let total := delay.wholeMilliseconds
  let seconds := total / 1000
  let millis := total % 1000
  "T#" ++ (if 0 < seconds then Numeral.ofNat seconds ++ "S" else "") ++
    (if 0 < millis ∨ seconds = 0 then Numeral.ofNat millis ++ "MS" else "")

structure Timer where
  name : String
  delay : Duration
  deriving DecidableEq, Repr

structure Block where
  timer : Option Timer
  tests : List Test
  guard : Option Expr
  assignments : List Assignment
  deriving DecidableEq

namespace Block

/-- The tests and the guard, or `TRUE` when there are none. -/
def condition (b : Block) : String :=
  let tests := if b.tests.isEmpty then []
    else ["(" ++ " AND ".intercalate (b.tests.map (·.text)) ++ ")"]
  let guard := (b.guard.map fun expr => "(" ++ expression expr ++ ")").toList
  if (tests ++ guard).isEmpty then "TRUE" else " AND ".intercalate (tests ++ guard)

def opening (b : Block) : List String :=
  match b.timer with
  | none => ["IF " ++ b.condition ++ " THEN"]
  | some timer =>
    [timer.name ++ "(IN := " ++ b.condition ++ ", PT := " ++ timeLiteral timer.delay ++ ");",
      "IF " ++ timer.name ++ ".Q THEN", "    " ++ timer.name ++ ".IN := FALSE;"]

def lines (b : Block) : List String :=
  b.opening ++ b.assignments.map (fun a => "    " ++ a.text) ++ ["END_IF"]

def text (b : Block) : String := "\n".intercalate b.lines

end Block

structure Program where
  places : List Declaration
  inputs : List Declaration
  timers : List Declaration
  triggers : List Trigger
  blocks : List Block
  deriving DecidableEq

namespace Program

def ofPlace (place : Place) : Declaration :=
  let initial := match place.type with
    | .int => Numeral.ofNat place.initialMark
    | .bool => if 0 < place.initialMark then "TRUE" else "FALSE"
  ⟨place.name, place.type.name, some initial⟩

def timerOf (transition : Transition) : Option Timer :=
  if transition.delay = 0 then none else some ⟨"ton_" ++ transition.name, transition.delay⟩

/-- The edges that the guards watch, each once, in the order in which they come first. -/
def triggersOf (net : Net) : List Trigger :=
  Guard.distinct (net.transitions.toList.flatMap fun t =>
    t.guard.triggers.map fun edge => ⟨edge.1, edge.2⟩)

def blockOf (net : Net) (t : Ref Transition) : Block where
  timer := timerOf (net.transition t)
  tests := (net.attached t).filterMap fun arc => arc.test? (net.place arc.place)
  guard := (net.transition t).guard.expr
  assignments := (net.arcsOf t .input ++ net.arcsOf t .output).map fun arc =>
    arc.assignment (net.place arc.place)

def ofNet (net : Net) : Program where
  places := net.places.toList.map ofPlace
  inputs := net.inputs.map fun input => ⟨input.name, input.type.name, none⟩
  timers := (net.transitions.toList.filterMap timerOf).map fun timer => ⟨timer.name, "TON", none⟩
  triggers := triggersOf net
  blocks := net.order.map (blockOf net)

def declarations (p : Program) : List Declaration :=
  p.places ++ p.inputs ++ p.timers ++ p.triggers.map (·.declaration)

def declared (p : Program) : List String := p.declarations.map (·.name)

def lines (p : Program) : List String :=
  ["VAR", "    // places"] ++ p.places.map (·.text) ++
    ["", "    // inputs"] ++ p.inputs.map (·.text) ++
    ["", "    // transitions delays"] ++ p.timers.map (·.text) ++
    ["", "    // edge triggers"] ++ p.triggers.map (·.declaration.text) ++
    ["END_VAR", "", "PROGRAM"] ++ p.triggers.map (·.call) ++
    ["", "\n\n".intercalate (p.blocks.map (·.text)), "END_PROGRAM"]

def render (p : Program) : String := "\n".intercalate p.lines

end Program

end StructuredText

def Net.program (net : Net) : String := (StructuredText.Program.ofNet net).render

end AutomationNet
