/-
# ExportDiff.Main — the program

The words of the command line say what to compare; a snapshot of the file tree is read from standard
input, and the command line is carried out at its top. The report goes to standard output, log lines
and failures to the error output. The log filter is the value of the environment variable `RUST_LOG`.
-/

import ExportDiff.CommandLine.Execute
import ExportDiff.FileTree.Snapshot
import ExportDiff.Log.Line

open ExportDiff ExportDiff.CommandLine

/-- The lines of a stream that are not empty. -/
partial def readLines (stream : IO.FS.Stream) (read : List String) : IO (List String) := do
  let line ← stream.getLine
  if line.isEmpty then return read.reverse
  let text := line.trimAscii.toString
  readLines stream (if text.isEmpty then read else text :: read)

/-- Prints what a run leaves behind and gives its exit status. -/
def finish (outcome : Outcome) (profile : Log.Profile) : IO UInt32 := do
  for line in outcome.logged.filterMap profile.line? do IO.eprintln line
  IO.print outcome.output
  IO.eprint outcome.errors
  return outcome.status.toUInt32

/-- Runs a command line. -/
def main (words : List String) : IO UInt32 := do
  match Arguments.ofWords words with
  | .error stop => finish stop.outcome .test
  | .ok arguments =>
    match FileTree.ofSnapshot (← readLines (← IO.getStdin) []) with
    | .error why =>
      IO.eprintln ("Error: the snapshot cannot be read: " ++ why)
      return 1
    | .ok tree => finish (arguments.execute tree [] (← IO.getEnv "RUST_LOG")) arguments.profile
