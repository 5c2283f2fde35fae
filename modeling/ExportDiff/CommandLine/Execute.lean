/-
# ExportDiff.CommandLine.Execute — carrying a command line out

The comparison that a command line asks for is run on a file tree, seen from a working directory. The
report goes to standard output only if the comparison was completed; a failure leaves one message on
the error output and nothing else. The exit status is 0 where nothing differs, 1 where something
differs or could not be read, and 2 where a directory to compare is missing or the command line is
rejected.
-/

import ExportDiff.CommandLine.Arguments
import ExportDiff.Comparison

namespace ExportDiff.CommandLine

/-! ## The comparison asked for -/

/-- The fields to ignore, each once, in order. -/
def Arguments.ignoredFields (a : Arguments) : List String :=
  (Assoc.ofList (a.ignored.map fun name => (name, ()))).map (·.1)

/-- The event that precedes a comparison. -/
def startingEvent (a : Arguments) : Log.Event :=
  ⟨.debug, Component.commandLine,
    [(Log.messageField, .text "starting comparison"),
     ("ignored_fields", .text (Text.quotedSet a.ignoredFields)),
     ("max_printed", .number a.maxPrinted)]⟩

/-- The comparison that a command line asks for. -/
def Arguments.comparison (a : Arguments) (tree : FileTree) (here : FileTree.Place) :
    Run TreeComparison := do
  Run.report [startingEvent a]
  compareTrees tree here ⟨a.ignoredFields⟩ a.base a.head

/-! ## Its outcome -/

/-- The exit status of a comparison. -/
def exitStatus : Except Failure TreeComparison → Nat
  | .ok c => if c.hasDifferences then 1 else 0
  | .error (.rootNotFound _ _) => 2
  | .error _ => 1

/-- What a comparison leaves on standard output. -/
def outputText (maxPrinted : Nat) : Except Failure TreeComparison → String
  | .ok c => Report.render c maxPrinted
  | .error _ => ""

/-- What a comparison leaves on the error output, besides log lines. -/
def errorText : Except Failure TreeComparison → String
  | .ok _ => ""
  | .error (.rootNotFound label path) => (Failure.rootNotFound label path).message ++ "\n"
  | .error failure => "Error: " ++ failure.message ++ "\n"

/-- What a run of the program leaves behind. -/
structure Outcome where
  status : Nat
  output : String
  errors : String
  /-- The events that are logged, in order. -/
  logged : List Log.Event

/-- Carries out the comparison of a command line; `requested` is the log filter asked for, if any. -/
def Arguments.execute (a : Arguments) (tree : FileTree) (here : FileTree.Place)
    (requested : Option String) : Outcome :=
  let run := a.comparison tree here
  ⟨exitStatus run.result, outputText a.maxPrinted run.result, errorText run.result,
    run.events.filter (a.profile.filter requested).allows⟩

/-- What is left behind where no comparison is run. -/
def Stop.outcome : Stop → Outcome
  | .help => ⟨0, usage, "", []⟩
  | .misuse why => ⟨2, "", "error: " ++ why.message ++ "\n\n" ++ usage, []⟩

end ExportDiff.CommandLine
