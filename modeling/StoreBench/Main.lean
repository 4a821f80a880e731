import StoreBench.CommandLine
import StoreBench.Text.Utf8

/-!
# `StoreBench.Main`: the program

Reads the variables of the environment and the files that the settings may
come from, hands them to `CommandLine.run`, and prints what that gives.
-/

set_option autoImplicit false

namespace StoreBench.Main

/-- The variables of the environment, those that are text. -/
def readVariables : IO (List (String × String)) := do
  let bytes ← IO.FS.readBinFile "/proc/self/environ"
  let entries := bytes.toList.splitBy fun a b => a != 0 && b != 0
  return entries.filterMap fun entry => do
    let text ← (Utf8.decode entry).toOption
    CommandLine.splitValue text

/-- A file with its text, if it can be read. -/
def readFile? (path : String) : IO (Option (String × String)) := do
  try
    return some (path, ← IO.FS.readFile path)
  catch _ =>
    return none

/-- Whether a path is a directory, which can be opened but not read. -/
def isDirectory (path : String) : IO Bool := do
  try
    let handle ← IO.FS.Handle.mk path .read
    discard (handle.read 1)
    return false
  catch
    | .inappropriateType none _ _ => return true
    | _ => return false

end StoreBench.Main

open StoreBench

def main (arguments : List String) : IO UInt32 := do
  let environment ← Main.readVariables
  let formats := FileFormat.usual
  let files ← (CommandLine.files formats environment arguments).filterMapM Main.readFile?
  let around : Surroundings := { files, environment, formats }
  let directories ← (CommandLine.places around arguments).filterM Main.isDirectory
  let output := CommandLine.run around directories arguments
  output.lines.forM IO.println
  output.complaints.forM IO.eprintln
  return output.status.toUInt32
