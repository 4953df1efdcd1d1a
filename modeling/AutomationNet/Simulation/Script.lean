import AutomationNet.Simulation.Run

/-!
# Scripted sessions

A script controls a session from a single thread: commands before it runs, commands in answer to its
ticks, and groups of commands for the moments when the loop sleeps. Playing a script gives a log of
all that can be seen from outside.

* `Script`, `LogEntry` : the script and what is logged
* `Playback` : a session while its script is played
* `Script.play` : the whole script
-/

namespace AutomationNet

structure Script where
  before : List Command := []
  onTick : List (Nat × List Command) := []
  /-- Groups of commands, one for each time the loop sleeps. -/
  whenPaused : List (List Command) := []
  runs : Nat := 1
  /-- The session is stopped at this tick. -/
  lastTick : Nat

inductive LogEntry where
  | created (state : RunState)
  | command (command : Command) (state : RunState)
  | tick (report : TickReport) (state : RunState)
  | waiting (state : RunState)
  | done (ticks : Nat) (state : RunState)
  deriving DecidableEq, Repr

structure Playback where
  run : Run
  groups : List (List Command)
  log : List LogEntry
  events : List Event := []
  warnings : List Warning := []

namespace Playback

def note (p : Playback) (entry : LogEntry) : Playback := { p with log := p.log ++ [entry] }

def apply (p : Playback) (command : Command) : Playback :=
  let control := p.run.control.apply command
  { p with
    run := { p.run with control }
    log := p.log ++ [.command command control.state] }

/-- Applies the commands in answer to a report, and stops the session at its last tick. -/
def answer (script : Script) (p : Playback) (report : TickReport) : Playback :=
  let p := p.note (.tick report p.run.control.state)
  let p := ((script.onTick.lookup report.tick).getD []).foldl apply p
  if script.lastTick ≤ report.tick then
    { p with run := { p.run with control := p.run.control.apply .stop } }
  else p

def follow (p : Playback) (run : Run) : Playback :=
  { p with run, events := p.events ++ run.events, warnings := p.warnings ++ run.warnings }

/-- Plays one run to its end, or until it sleeps with no group left. -/
def playRun (script : Script) (values : InputValues) : Nat → Playback → Playback
  | 0, p => p
  | budget + 1, p =>
    let p := match p.run.point, p.run.report with
      | .reporting, some report => p.answer script report
      | _, _ => p
    match p.run.next? p.run.session.net.order values with
    | some run => playRun script values budget (p.follow run)
    | none =>
      if p.run.point = .finished then p.note (.done p.run.ticks p.run.control.state)
      else
        let p := p.note (.waiting p.run.control.state)
        match p.groups with
        | [] => p
        | group :: rest => playRun script values budget (group.foldl apply { p with groups := rest })

end Playback

namespace Script

/-- A tick takes the loop at most four steps and one sleep with a wake-up left over from before, and
a group of commands one sleep. -/
def budget (script : Script) : Nat := 16 * (script.lastTick + script.whenPaused.length + 1)

/-- Plays a script on a session whose accessor always gives the same values. -/
def play (script : Script) (values : InputValues) (session : Session) : Playback :=
  let start : Playback :=
    { run := { session }, groups := script.whenPaused, log := [.created .paused] }
  (List.range script.runs).foldl
    (fun p _ => { p with run := p.run.again }.playRun script values script.budget)
    (script.before.foldl Playback.apply start)

end Script

end AutomationNet
