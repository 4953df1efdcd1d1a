import AutomationNet.CommandLine.Command

/-!
# The program

Carries out a command line over the files and the output of the system.
-/

namespace AutomationNet.CommandLine

def fileExists (path : String) : IO Bool := do
  try
    let _ ← IO.FS.realPath path
    return true
  catch _ => return false

def readFile (path : String) : IO (Except ReadFault String) := do
  if !(← fileExists path) then return .error .missing
  try
    return .ok (← IO.FS.readFile path)
  catch _ => return .error .unreadable

def writeFile (path content : String) : IO Bool := do
  try
    IO.FS.writeFile path content
    return true
  catch _ => return false

/-- The longest time that can be waited for at once, in milliseconds. -/
def longestWait : Nat := 0xFFFFFFFF

def systemHost : Host IO where
  read := readFile
  write := writeFile
  print line := do
    IO.println line
    (← IO.getStdout).flush
  wait time := IO.sleep (min (time / Duration.nanosPerMilli) longestWait).toUInt32
  entropy := IO.rand 0 longestWait

def program (arguments : List String) : IO UInt32 := do
  let flags := (← IO.getEnv "PN_FLAGS").getD ""
  match ← (Command.run systemHost flags arguments).run with
  | .ok () => return 0
  | .error failure =>
    IO.eprintln failure.text
    return failure.exitCode.toUInt32

end AutomationNet.CommandLine

def main (arguments : List String) : IO UInt32 := AutomationNet.CommandLine.program arguments
