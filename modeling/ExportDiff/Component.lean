/-
# ExportDiff.Component — the components that report events

The names under which the parts of the program report events, and their operations.
-/

import ExportDiff.Log.Event

namespace ExportDiff

namespace Component

def comparison : String := "ccdiff_core::compare"
def discovery : String := "ccdiff_core::source::discovery"
def loading : String := "ccdiff_core::source::loader"
def commandLine : String := "ccdiff_cli::commands::compare"

end Component

/-- Comparing two directories. -/
def compareTreesOperation : Log.Operation := ⟨Component.comparison, "compare_trees"⟩

/-- Comparing the two files of one relative path. -/
def compareFileOperation : Log.Operation := ⟨Component.comparison, "compare_file"⟩

/-- Finding the export files below a directory. -/
def discoverOperation : Log.Operation := ⟨Component.discovery, "discover_files"⟩

/-- Reading the records of a file. -/
def loadOperation : Log.Operation := ⟨Component.loading, "load_records"⟩

end ExportDiff
