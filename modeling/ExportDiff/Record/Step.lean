/-
# ExportDiff.Record.Step — changing a record step by step

A record is changed by setting a field, by removing one, and by normalizing. Setting and removing give
the value that the field had.
-/

import ExportDiff.Record.Normalize

namespace ExportDiff.Record

/-- A change of a record. -/
inductive Step where
  | insert (name : String) (x : Json)
  | remove (name : String)
  | normalize (options : NormalizeOptions)

/-- Makes a change; gives the value that the field had, if it is about one, and the changed record. -/
def Step.apply : Step → Record → Option Json × Record
  | .insert name x, r => r.exchange name x
  | .remove name, r => r.extract name
  | .normalize options, r => (none, r.normalize options)

/-- A record after some changes, one after the other. -/
def after (r : Record) (steps : List Step) : Record :=
  steps.foldl (fun r step => (step.apply r).2) r

end ExportDiff.Record
