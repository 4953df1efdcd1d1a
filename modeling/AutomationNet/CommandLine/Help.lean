import AutomationNet.CommandLine.Misuse

/-!
# Help

The texts that tell how the command line is used.

* `Topic.text` : the help on a topic
* `versionText` : the name and the version of the program
-/

namespace AutomationNet.CommandLine

def programName : String := "pn"

def versionText : String := programName ++ " v0.1.0"

def Verb.about : Verb → String
  | .check => "Validate a net"
  | .simulate => "Run a net headless and print one line per tick"
  | .codegen => "Translate a net to structured text"

def helpAbout : String := "Print this message or the help of the given subcommand(s)"

namespace Switch

def valueName? : Switch → Option String
  | .config | .inputs | .output => some "FILE"
  | .ticks => some "ticks"
  | .mode => some "mode"
  | .json | .help | .version => none

def about : Switch → String
  | .config => "Runtime settings (TOML) [default: pn.toml]"
  | .ticks => "[default: 100]"
  | .inputs => "JSON object of input values, re-read every tick"
  | .mode => "Override the net's simulation mode [possible values: classic, automation, visobj]"
  | .json => "Print tick reports as JSON lines"
  | .output => "Write the program here instead of stdout"
  | .help => "Print help"
  | .version => "Print version"

def usage (s : Switch) : String :=
  (s.short?.elim "    " fun letter => String.ofList ['-', letter, ',', ' ']) ++ "--" ++ s.long ++
    s.valueName?.elim "" fun name => " <" ++ name ++ ">"

end Switch

def padded (width : Nat) (text : String) : String :=
  text ++ String.ofList (List.replicate (width - text.length) ' ')

/-- Names with what is said about them, in two columns. -/
def columns (rows : List (String × String)) : List String :=
  let width := (rows.map fun row => row.1.length).foldl max 0
  rows.map fun row => "  " ++ padded width row.1 ++ "  " ++ row.2

def switchLines (verb : Option Verb) : List String :=
  "Options:" :: columns ((Switch.allowed verb).map fun s => (s.usage, s.about))

namespace Topic

def lines : Topic → List String
  | .program =>
    ["Automation Petri net simulator and structured-text generator", "",
      "Usage: " ++ programName ++ " [OPTIONS] <COMMAND>", "", "Commands:"] ++
    columns (Verb.all.map (fun verb => (verb.name, verb.about)) ++ [("help", helpAbout)]) ++
    [""] ++ switchLines none
  | .verb v =>
    [v.about, "", "Usage: " ++ v.name ++ " [OPTIONS] <NET>", "", "Arguments:",
      "  <NET>  Net description (.json/.apn, or .ron)", ""] ++ switchLines (some v)
  | .help =>
    [helpAbout, "", "Usage: help [COMMAND]...", "", "Arguments:",
      "  [COMMAND]...  Print help for the subcommand(s)"]

def text (topic : Topic) : String := "\n".intercalate topic.lines

end Topic

end AutomationNet.CommandLine
