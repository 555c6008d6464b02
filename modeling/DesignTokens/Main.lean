import DesignTokens.CommandLine.Report

/-
  This file defines the program, which works on the system's
  files and prints the report of its arguments.

  Key definitions include:
    * `main`
-/

------------------------------------------------------------
-- The System's Files
------------------------------------------------------------

namespace DesignTokens

namespace Disk

/- The text of a file of the system. -/
def readText? (path : String) : IO (Option String) := do
  try
    return some (← IO.FS.readFile path)
  catch _ =>
    return none

/- The system has a file, and no directory, at a path. -/
def isFile (path : String) : IO Bool := do
  try
    discard (IO.FS.readBinFile path)
    return true
  catch e =>
    match e with
    | .noFileOrDirectory _ _ _ => return false
    | .inappropriateType _ _ _ => return false
    | _ => return true

/- Make a directory of the system and those that lead to it. -/
def makeDirectory (path : String) : IO Bool := do
  try
    IO.FS.createDirAll path
    return true
  catch _ =>
    return false

/- Write a file of the system. -/
def writeFile (path content : String) : IO Bool := do
  try
    IO.FS.writeFile path content
    return true
  catch _ =>
    return false

end Disk

instance : Files IO where
  readText? := Disk.readText?
  isFile := Disk.isFile
  makeDirectory := Disk.makeDirectory
  writeFile := Disk.writeFile

end DesignTokens

------------------------------------------------------------
-- The Program
------------------------------------------------------------

/- Answer the arguments; the status tells whether all went well. -/
def main (args : List String) : IO UInt32 := do
  let request := DesignTokens.Request.ofArguments args
  let report ← request.answer
  IO.print report.output
  match report.fatal with
  | none => pure ()
  | some reason => IO.eprintln ("Error: " ++ reason)
  return UInt32.ofNat report.status
