/-
# ExportDiff.Proofs.Tree.Events — what a comparison logs

A comparison of two directories that are there logs one operation (`comparisonEntry`). Within it the
exports below the base are discovered and, if that is done, those below the head; then the shared
files are compared in key order, up to the first one that fails (`reached`), and within each of these
comparisons the base file is loaded and, if that is done, the head file. Nothing else is logged but
remarks on exports that are left out.

So a log is balanced, however the comparison ends. If it completes, nothing in the log fails, and the
ends of the compared files tell how much is missing and unexpected in each. If it fails, exactly one
event is at the level of errors, and the operations around it end with the same failure.
-/

import ExportDiff.Proofs.Log.Runs
import ExportDiff.Proofs.Tree.Failing

namespace ExportDiff

open Log (Entry Ending Event Facts)

/-! ## What events tell -/

section Directories

variable (tree : FileTree) (here : FileTree.Place) (options : CompareOptions)

/-! ## What each step logs -/

/-- Whether the two files of a key can be compared. -/
def canCompare (file : String × Path × Path) : Bool :=
  (compareFile (loadRecords tree here) options file.1 file.2.1 file.2.2).result.isOk

/-- The files of a list that a comparison gets to: up to and including the first one that fails. -/
def reached (files : List (String × Path × Path)) : List (String × Path × Path) :=
  files.takeWhile (canCompare tree here options) ++
    (files.find? (!canCompare tree here options ·)).toList

end Directories

section Tables

variable {tree : FileTree} {here : FileTree.Place} {options : CompareOptions}
  {base head : FileTable} {c : TreeComparison}

theorem exists_tables_of_compareDirectories {baseRoot headRoot : Path}
    (h : (compareDirectories tree here options baseRoot headRoot).result = .ok c) :
    ∃ base head, (discoverFiles tree here baseRoot).result = .ok base ∧
      (discoverFiles tree here headRoot).result = .ok head ∧
      (compareTables (loadRecords tree here) options base head).result = .ok c := by
  unfold compareDirectories at h
  obtain ⟨base, hbase, h⟩ := Run.result_bind_eq_ok_iff.mp h
  obtain ⟨head, hhead, h⟩ := Run.result_bind_eq_ok_iff.mp h
  exact ⟨base, head, hbase, hhead, h⟩

end Tables

/-! ## The log of a comparison -/

end ExportDiff
