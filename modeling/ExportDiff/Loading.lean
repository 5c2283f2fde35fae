/-
# ExportDiff.Loading — the records of an export file

An export file is a JSON array, which holds a record for every element, or a JSON object, which is
one record. Anything else at the top level is a failure of the whole run.
-/

import ExportDiff.Component
import ExportDiff.FileTree.Resolve
import ExportDiff.Json.Reader.Value
import ExportDiff.Record.Basic
import ExportDiff.Run

namespace ExportDiff

/-- The records of an export file's text; the path only serves to name the file in a failure. -/
def parseRecords (origin : Path) (content : String) : Except Failure (List Record) :=
  match Json.parse content with
  | .error e => .error (.invalidJson origin e.message)
  | .ok (.arr items) => .ok (items.map Record.ofJson)
  | .ok (.obj members) => .ok [Record.ofJson (.obj members)]
  | .ok other => .error (.unsupportedStructure origin other.typeName)

/-- The records of the file that a path leads to. -/
def readRecords (tree : FileTree) (here : FileTree.Place) (p : Path) :
    Except Failure (List Record) :=
  match tree.readText here p with
  | .error e => .error (.unreadable p e.message)
  | .ok content => parseRecords p content

/-- Reads the records of a file, as an operation. -/
def loadRecords (tree : FileTree) (here : FileTree.Place) (p : Path) : Run (List Record) :=
  let path : Log.Field := ("path", .text p.display)
  Run.between (loadOperation.started [path])
    (fun records => loadOperation.ended .elapsed [("record_count", .number records.length)])
    (fun failure => loadOperation.failed .elapsed failure [path])
    (Run.ofExcept (readRecords tree here p))

end ExportDiff
