/-
# ExportDiff.Discovery — the export files below a directory

All entries below a directory are visited, the entries of each directory in name order; links to
directories are not entered. What counts is whether an entry is a file, or a link to one, and its own
name: it has to be the name of an export, and not of a non-production one. The names of the
directories on the way play no part.

An entry cannot be looked at if its path is too long for the system, or if a directory on the way may
not be entered: it is not taken for a file, and if it is a directory, the walk ends there with a failure.
The walk also ends with a directory that may not be read.

The files are listed by their relative keys, in key order. Of two files with one key the one visited
later counts.
-/

import ExportDiff.Component
import ExportDiff.FileTree.Resolve
import ExportDiff.Run

namespace ExportDiff

open FileTree (Place Node Name)

/-- The files found, by relative key, in strictly increasing key order. -/
abbrev FileTable := List (String × Path)

/-! ## The root of a comparison -/

/-- The absolute path of a directory to compare. The label names it in a failure. -/
def ensureDirectory (tree : FileTree) (here : Place) (label : String) (p : Path) :
    Except Failure Path :=
  if tree.isDirectory here p then
    (tree.canonical? here p).mapError fun e => .unreadable p e.message
  else .error (.rootNotFound label p)

/-! ## Visiting -/

/-- The failure of a walk to which the system refused a directory. -/
def walkFailure (directory : Path) (e : FileTree.PathError) : Failure :=
  .traversal directory ("IO error for operation on " ++ directory.display ++ ": " ++ e.message)

/-- An entry as it is visited: the names that lead to it from the root of the walk, and whether it is
a file or a link to one. -/
structure Visit where
  names : Place
  isFile : Bool

/-- A walk: the entries visited, in order, and the directory with which it ended early, if it did, with
the reason. -/
structure Walk where
  entries : List Visit
  refused : Option (Path × FileTree.PathError)

/-- The path of an entry, from the names that lead to it from the root of a walk. -/
def entryPath (root : Path) (names : Place) : Path :=
  root.joinAll (names.map (·.bytes))

/-- The place where the walk starts, with the number of links still to be followed, and the entries
to visit. The root itself is the first of them; if it is a link, what it leads to is walked. -/
def startWalk (tree : FileTree) (here : Place) (root : Path) :
    Except FileTree.PathError (Place × Nat × List (Place × Node)) :=
  match tree.resolve true here root with
  | .error e => .error e
  | .ok (.absent _ _, _) => .error .notFound
  | .ok (.present place node, links) => .ok (place, links, ([], node) :: node.descendants)

/-- Whether a visited node is a file, or a link that leads to one. -/
def leadsToFile (tree : FileTree) (start : Place) (links : Nat) (names : Place) : Node → Bool
  | .file _ => true
  | .directory _ => false
  | .link target =>
    -- Links on the way to the root of the walk count as well.
    match links with
    | 0 => false
    | links + 1 =>
      match tree.walk .direct true links
          (if target.isAbsolute then [] else tree.trailTo (start ++ names.dropLast))
          (FileTree.moves target) with
      | .ok (.present _ (.file _), _) => true
      | _ => false

/-- Why the system does not look at an entry, asked for it by its path, if it does not. Names lead to it
from the start of the walk. -/
def entryFault? (tree : FileTree) (start : Place) (root : Path) (names : Place) :
    Option FileTree.PathError :=
  if FileTree.isTooLong (entryPath root names) then some .nameTooLong
  else if tree.mayDescend start names then none
  else some .denied

/-- Why the system refuses to list a visited node, if that is a directory. -/
def refusal? (tree : FileTree) (start : Place) (root : Path) (entry : Place × Node) :
    Option FileTree.PathError :=
  if entry.2.isDirectory then
    (entryFault? tree start root entry.1).or
      (if tree.mayRead (start ++ entry.1) then none else some .denied)
  else none

/-- The walk below a root. -/
def walkBelow (tree : FileTree) (here : Place) (root : Path) : Except FileTree.PathError Walk :=
  (startWalk tree here root).map fun (start, links, nodes) =>
    ⟨(nodes.takeWhile fun entry => (refusal? tree start root entry).isNone).map fun (names, node) =>
        ⟨names, (entryFault? tree start root names).isNone &&
          leadsToFile tree start links names node⟩,
      nodes.findSome? fun entry =>
        (refusal? tree start root entry).map (entryPath root entry.1, ·)⟩

/-! ## Choosing -/

/-- The path of a visited entry. -/
def Visit.path (root : Path) (visit : Visit) : Path := entryPath root visit.names

/-- The file name of a visited entry; the root of a walk has the name that its path gives it. -/
def Visit.fileName? (root : Path) (visit : Visit) : Option (List UInt8) :=
  match visit.names.getLast? with
  | some name => some name.bytes
  | none => root.fileName?

/-- The relative key of a visited entry. -/
def Visit.key (visit : Visit) : String := Path.keyOfNames (visit.names.map (·.bytes))

/-- Whether a visited entry is a file with the name of an export. -/
def Visit.isExport (root : Path) (visit : Visit) : Bool :=
  visit.isFile && (visit.fileName? root).any Path.isExportName

/-- Whether a visited entry has the name of a non-production export. -/
def Visit.isNonProduction (root : Path) (visit : Visit) : Bool :=
  (visit.fileName? root).any Path.isNonProductionName

/-- The event of a non-production export being left out. -/
def skippedEvent (root : Path) (visit : Visit) : Log.Event :=
  ⟨.debug, Component.discovery,
    [(Log.messageField, .text "skipping non-production export"),
     ("path", .text (visit.path root).display)]⟩

/-- The table of the exports among visited entries. -/
def tableOf (root : Path) (entries : List Visit) : FileTable :=
  Assoc.ofList ((entries.filter fun v => v.isExport root && !v.isNonProduction root).map fun v =>
    (v.key, v.path root))

/-- The events of the exports that are left out. -/
def skippedEvents (root : Path) (entries : List Visit) : List Log.Event :=
  (entries.filter fun v => v.isExport root && v.isNonProduction root).map (skippedEvent root)

/-- Visits what is below a directory and lists its export files. -/
def findExports (tree : FileTree) (here : Place) (root : Path) : Run FileTable :=
  match walkBelow tree here root with
  | .error e => Run.fail (walkFailure root e)
  | .ok walk =>
    ⟨match walk.refused with
      | none => .ok (tableOf root walk.entries)
      | some (directory, e) => .error (walkFailure directory e),
      skippedEvents root walk.entries⟩

/-- Lists the export files below a directory, as an operation. -/
def discoverFiles (tree : FileTree) (here : Place) (root : Path) : Run FileTable :=
  let field : Log.Field := ("root", .text root.display)
  Run.between (discoverOperation.started [field])
    (fun files => discoverOperation.ended .elapsed [("file_count", .number files.length)])
    (fun failure => discoverOperation.failed .elapsed failure [field])
    (findExports tree here root)

end ExportDiff
