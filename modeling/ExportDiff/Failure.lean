/-
# ExportDiff.Failure — why a comparison could not be completed

A run ends at its first failure: a directory that is not there, a directory that could not be walked,
a file that could not be read, or one that holds no JSON or no records. A file that cannot be read is
never taken for one without differences.

A failure also has a structured form, for logs and for programs: its kind, which has a stable code,
the operation and the path that it belongs to, and a message.
-/

import ExportDiff.Path

namespace ExportDiff

/-- Why a run ended early. -/
inductive Failure where
  /-- A directory to compare is missing, or is no directory. -/
  | rootNotFound (label : String) (path : Path)
  /-- A file could not be read. -/
  | unreadable (path : Path) (message : String)
  /-- A file is not valid JSON. -/
  | invalidJson (path : Path) (message : String)
  /-- A file holds neither an array nor an object. -/
  | unsupportedStructure (path : Path) (found : String)
  /-- A directory could not be walked. -/
  | traversal (path : Path) (message : String)

/-- The wording of a failure. -/
def Failure.message : Failure → String
  | .rootNotFound label path => label ++ " directory not found: " ++ path.display
  | .unreadable path message => "Failed to read " ++ path.display ++ ": " ++ message
  | .invalidJson path message => "Failed to parse JSON from " ++ path.display ++ ": " ++ message
  | .unsupportedStructure path found =>
    "Unsupported JSON structure in " ++ path.display ++ ": " ++ found
  | .traversal path message => "Failed to traverse " ++ path.display ++ ": " ++ message

/-- Whether two failures are the same, with paths compared by their components. -/
def Failure.same : Failure → Failure → Bool
  | .rootNotFound s p, .rootNotFound t q => s == t && p.same q
  | .unreadable p s, .unreadable q t => p.same q && s == t
  | .invalidJson p s, .invalidJson q t => p.same q && s == t
  | .unsupportedStructure p s, .unsupportedStructure q t => p.same q && s == t
  | .traversal p s, .traversal q t => p.same q && s == t
  | _, _ => false

/-! ## Kinds -/

/-- The kinds of failures. -/
inductive FailureKind where
  | notFound
  | io
  | invalidJson
  | unsupportedStructure
  | traversal
  deriving DecidableEq, Repr

namespace FailureKind

/-- The name of a kind in logs. -/
def name : FailureKind → String
  | .notFound => "NotFound"
  | .io => "Io"
  | .invalidJson => "InvalidJson"
  | .unsupportedStructure => "UnsupportedStructure"
  | .traversal => "Traversal"

/-- The stable code of a kind. -/
def code : FailureKind → String
  | .notFound => "ERR_NOT_FOUND"
  | .io => "ERR_IO"
  | .invalidJson => "ERR_INVALID_JSON"
  | .unsupportedStructure => "ERR_UNSUPPORTED_STRUCTURE"
  | .traversal => "ERR_TRAVERSAL"

end FailureKind

/-- The kind of a failure. -/
def Failure.kind : Failure → FailureKind
  | .rootNotFound .. => .notFound
  | .unreadable .. => .io
  | .invalidJson .. => .invalidJson
  | .unsupportedStructure .. => .unsupportedStructure
  | .traversal .. => .traversal

/-! ## Structured form -/

/-- A failure's kind with what is known about it. -/
structure FailureReport where
  kind : FailureKind
  operation : Option String
  path : Option Path
  message : String

namespace FailureReport

/-- The report that says nothing but the kind. -/
def ofKind (kind : FailureKind) : FailureReport := ⟨kind, none, none, ""⟩

/-- The text of a report: the parts that are known, and the message unless it is empty. -/
def display (r : FailureReport) : String :=
  "[" ++ r.kind.code ++ "]"
    ++ r.operation.elim "" (fun op => " in operation '" ++ op ++ "'")
    ++ (if r.message = "" then "" else ": " ++ r.message)
    ++ r.path.elim "" (fun path => " (path: " ++ path.display ++ ")")

end FailureReport

/-- The structured form of a failure. -/
def Failure.report : Failure → FailureReport
  | .rootNotFound label path =>
    ⟨.notFound, some "ensure_directory", some path, label ++ " directory not found"⟩
  | .unreadable path message => ⟨.io, some "load_records", some path, message⟩
  | .invalidJson path message => ⟨.invalidJson, some "load_records", some path, message⟩
  | .unsupportedStructure path found =>
    ⟨.unsupportedStructure, some "load_records", some path, "top-level JSON value is " ++ found⟩
  | .traversal path message => ⟨.traversal, some "discover_files", some path, message⟩

end ExportDiff
