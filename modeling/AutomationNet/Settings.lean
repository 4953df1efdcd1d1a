import AutomationNet.Duration
import AutomationNet.Text.Numeral
import AutomationNet.Toml.Reading

/-!
# Settings

The pace of a session, read from a configuration file. Every setting has a value when the file does
not give one.

* `Settings` : the settings, in milliseconds
* `Settings.parse?` : the settings of a document
* `Settings.headless` : settings without any pause
-/

namespace AutomationNet

structure Settings where
  /-- The simulated time of a tick. -/
  cycleMillis : Nat := 10
  pauseMillis : Nat := 50
  animationMillis : Nat := 0
  /-- Where drawing an order starts. -/
  seed : Option Nat := none
  deriving DecidableEq, Repr

namespace Settings

def cycle (s : Settings) : Duration := .ofMillis s.cycleMillis

def pause (s : Settings) : Duration := .ofMillis s.pauseMillis

def animation (s : Settings) : Duration := .ofMillis s.animationMillis

/-- An entry that must be an unsigned 64-bit number if it is there. -/
def natEntry? (entries : Toml.Entries) (key : String) : Option (Option Nat) :=
  match entries.lookup key with
  | none => some none
  | some (.integer i) => if 0 ≤ i ∧ i ≤ Numeral.maxNat64 then some (some i.toNat) else none
  | some _ => none

/-- The settings in the entries of a document; other entries are left aside. -/
def ofEntries? (entries : Toml.Entries) : Option Settings := do
  let defaults : Settings := {}
  return {
    cycleMillis := (← natEntry? entries "cycle_interval_ms").getD defaults.cycleMillis
    pauseMillis := (← natEntry? entries "tick_pause_ms").getD defaults.pauseMillis
    animationMillis := (← natEntry? entries "fire_animation_ms").getD defaults.animationMillis
    seed := ← natEntry? entries "seed" }

def parse? (text : String) : Option Settings := do
  let entries ← Toml.parse text
  ofEntries? entries

/-- Settings without any pause, the cycle being counted in 64 bits of milliseconds. -/
def headless (cycle : Duration) : Settings where
  cycleMillis := cycle / Duration.nanosPerMilli % (1 <<< 64)
  pauseMillis := 0
  animationMillis := 0

end Settings

end AutomationNet
