/-
# ExportDiff.Comparison — comparing files and directories

Two files of one relative path are compared as multisets of normalized records. Two directories are
compared file by file: a file below one of them only is a difference of its own, and the files below
both are loaded and compared in the order of their relative paths. The first file that cannot be
loaded ends the comparison; files below one directory only are never read.
-/

import ExportDiff.Discovery
import ExportDiff.Loading
import ExportDiff.MultisetDiff

namespace ExportDiff

/-! ## Results -/

/-- The differences between the two files of a relative path, with the indexes that show the records
behind the keys. -/
structure FileDiff where
  relPath : String
  diff : MultisetDiff
  base : FrequencyIndex
  head : FrequencyIndex

/-- The differences between two directories. -/
structure TreeComparison where
  onlyInBase : List String
  onlyInHead : List String
  fileDiffs : List FileDiff
  filesCompared : Nat

/-- Whether anything differs. -/
def TreeComparison.hasDifferences (c : TreeComparison) : Bool :=
  !c.onlyInBase.isEmpty || !c.onlyInHead.isEmpty || !c.fileDiffs.isEmpty

/-! ## Options -/

/-- What the caller chooses for a comparison. How many items of a list are printed is chosen with it, but
nothing that is compared depends on that: the report takes the number by itself. -/
structure CompareOptions where
  ignored : List String

/-- Relative paths that contain this are compared without identifiers. -/
def stripIdFragment : String := "CaseEventToComplexTypes"

/-- Whether the records of a relative path are compared without identifiers. -/
def stripsId (relPath : String) : Bool :=
  Text.occursIn stripIdFragment.toList relPath.toList

/-- How the records of a relative path are normalized. -/
def CompareOptions.normalizeOptions (options : CompareOptions) (relPath : String) :
    NormalizeOptions :=
  ⟨options.ignored, stripsId relPath⟩

/-! ## Two files -/

/-- The differences between two collections of records, if there are any. -/
def compareRecords (options : CompareOptions) (relPath : String) (base head : List Record) :
    Option FileDiff :=
  let baseIndex := FrequencyIndex.ofRecords (options.normalizeOptions relPath) base
  let headIndex := FrequencyIndex.ofRecords (options.normalizeOptions relPath) head
  let diff := baseIndex.diff headIndex
  if diff.isIdentical then none else some ⟨relPath, diff, baseIndex, headIndex⟩

/-- How a file's records are loaded. -/
abbrev Loader := Path → Run (List Record)

/-- Loads two files, the base first, and compares them. -/
def loadAndCompare (load : Loader) (options : CompareOptions) (relPath : String)
    (base head : Path) : Run (Option FileDiff) := do
  let baseRecords ← load base
  let headRecords ← load head
  return compareRecords options relPath baseRecords headRecords

/-- Loads and compares two files, as an operation. -/
def compareFile (load : Loader) (options : CompareOptions) (relPath : String)
    (base head : Path) : Run (Option FileDiff) :=
  let path : Log.Field := ("rel_path", .text relPath)
  Run.between (compareFileOperation.started [path, ("strip_id", .flag (stripsId relPath))])
    (fun fileDiff => compareFileOperation.ended .elapsed
      [path,
       ("missing_count", .number (fileDiff.elim 0 fun d => d.diff.missing.length)),
       ("unexpected_count", .number (fileDiff.elim 0 fun d => d.diff.unexpected.length))])
    (fun failure => compareFileOperation.interrupted .elapsed failure [path])
    (loadAndCompare load options relPath base head)

/-! ## Two directories -/

/-- The files of both tables with one relative key, in key order. -/
def sharedFiles (base head : FileTable) : List (String × Path × Path) :=
  base.filterMap fun (key, basePath) =>
    (Assoc.find? key head).map fun headPath => (key, basePath, headPath)

/-- The keys of a table that the other one does not have. -/
def keysOnlyIn (table other : FileTable) : List String :=
  (table.map (·.1)).filter fun key => (Assoc.find? key other).isNone

/-- Compares the files of a list one after the other and keeps the differences. -/
def compareShared (load : Loader) (options : CompareOptions) :
    List (String × Path × Path) → Run (List FileDiff)
  | [] => return []
  | (key, base, head) :: rest => do
    let fileDiff ← compareFile load options key base head
    let others ← compareShared load options rest
    return fileDiff.toList ++ others

/-- Compares the files of two tables. -/
def compareTables (load : Loader) (options : CompareOptions) (base head : FileTable) :
    Run TreeComparison := do
  let shared := sharedFiles base head
  let fileDiffs ← compareShared load options shared
  return ⟨keysOnlyIn base head, keysOnlyIn head base, fileDiffs, shared.length⟩

/-- Lists the export files below two directories and compares them. -/
def compareDirectories (tree : FileTree) (here : FileTree.Place) (options : CompareOptions)
    (base head : Path) : Run TreeComparison := do
  let baseFiles ← discoverFiles tree here base
  let headFiles ← discoverFiles tree here head
  compareTables (loadRecords tree here) options baseFiles headFiles

/-- Compares two directories, as an operation. Both have to be directories, the base being looked at
first, before anything is read or reported. -/
def compareTrees (tree : FileTree) (here : FileTree.Place) (options : CompareOptions)
    (base head : Path) : Run TreeComparison := do
  let base ← Run.ofExcept (ensureDirectory tree here "Base" base)
  let head ← Run.ofExcept (ensureDirectory tree here "Head" head)
  Run.between
    (compareTreesOperation.started [("base", .text base.display), ("head", .text head.display)])
    (fun c => compareTreesOperation.ended .elapsed
      [("file_count", .number c.filesCompared), ("differing_files", .number c.fileDiffs.length)])
    (fun failure => compareTreesOperation.interrupted .elapsed failure [])
    (compareDirectories tree here options base head)

end ExportDiff
