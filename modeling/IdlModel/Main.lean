import IdlModel.CommandLine.Program

/-!
# The command line program

The program in the world of files and terminals.
-/

open IdlModel CommandLine

/-- The files of the system. -/
def systemHost (colors : Bool) : Host IO where
  readText path := do
    try return some (← IO.FS.readFile path)
    catch _ => return none
  writeText path text := do
    try
      IO.FS.writeFile path text
      return true
    catch _ => return false
  colors

/-- Write a text with a line end, unless there is one or nothing to write. -/
def writeMessages (stream : IO.FS.Stream) (text : String) : IO Unit := do
  stream.putStr text
  unless text.isEmpty || text.endsWith "\n" do stream.putStr "\n"

/-- Run the program. -/
def main (args : List String) : IO UInt32 := do
  let messages ← IO.getStderr
  let outcome ← CommandLine.run (systemHost (← messages.isTty)) args
  writeMessages messages outcome.messages
  (← IO.getStdout).putStr outcome.output
  return outcome.code.toUInt32
