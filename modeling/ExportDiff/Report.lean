/-
# ExportDiff.Report — a comparison as text for people

The report lists the files below one directory only, then a block for every file with differences,
and ends with the verdict. A block shows the missing and the unexpected records, each with the closest
match on the other side where there is one. Every list is cut after a number of items that the caller
chooses, and says how many more there are. Lists without items are left out.

Records are shown as indented JSON, every line of it indented further than anything the report says
itself about the record.
-/

import ExportDiff.Comparison
import ExportDiff.Similarity.BestMatch

namespace ExportDiff.Report

/-- The last line of a report on directories that differ. -/
def differencesVerdict : String := "Semantic differences detected in CCD configuration outputs."

/-- The last line of a report on directories that do not differ. -/
def identicalVerdict : String :=
  "No semantic differences detected between CCD configuration outputs."

/-- How many items of a list are shown unless the caller chooses otherwise. -/
def defaultMaxItems : Nat := 20

/-! ## Parts -/

/-- Every line of a text behind an indentation, which a blank line goes without. -/
def indentLines (indent : String) (text : String) : String :=
  String.join ((Text.lines text.toList).map fun line =>
    (if Text.isBlankLine line then "" else indent) ++ String.ofList line ++ "\n")

/-- The line that says how many items of a list are not shown. -/
def moreLine (indent : String) (count maxItems : Nat) : String :=
  if maxItems < count then indent ++ "... " ++ toString (count - maxItems) ++ " more not shown\n"
  else ""

/-- A list of files under a heading. -/
def listing (label : String) (paths : List String) (maxItems : Nat) : String :=
  if paths.isEmpty then ""
  else
    label ++ ":\n"
      ++ String.join ((paths.take maxItems).map fun path => "  " ++ path ++ "\n")
      ++ moreLine "  " paths.length maxItems
      ++ "\n"

/-- A record and its closest match on the other side. -/
def recordText (opposite : FrequencyIndex) (r : Record) : String :=
  indentLines "      " r.pretty
    ++ (opposite.bestMatch? r).elim "" fun best =>
      "      closest match " ++ best.ratio.percentText ++ "%:\n"
        ++ indentLines "        " best.record.pretty

/-- The item with a number: the record behind a key, if there is one. -/
def entryText (samples opposite : FrequencyIndex) (number : Nat) (key : String) : String :=
  "    " ++ toString number ++ ")\n"
    ++ ((samples.representative? key).elim "" (recordText opposite))

/-- The items of a list of keys, numbered from `number` on. -/
def entryTexts (samples opposite : FrequencyIndex) (number : Nat) : List String → String
  | [] => ""
  | key :: keys =>
    entryText samples opposite number key ++ entryTexts samples opposite (number + 1) keys

/-- The records behind a list of keys under a heading with their number; `samples` has the records,
and `opposite` is searched for closest matches. -/
def entries (label : String) (keys : List String) (samples opposite : FrequencyIndex)
    (maxItems : Nat) : String :=
  if keys.isEmpty then ""
  else
    "  " ++ label ++ " (" ++ toString keys.length ++ "):\n"
      ++ entryTexts samples opposite 1 (keys.take maxItems)
      ++ moreLine "    " keys.length maxItems

/-- The block of one file. -/
def fileBlock (d : FileDiff) (maxItems : Nat) : String :=
  "Differences found in " ++ d.relPath ++ "\n"
    ++ entries "Missing entries" d.diff.missing d.base d.head maxItems
    ++ entries "Unexpected entries" d.diff.unexpected d.head d.base maxItems
    ++ "\n"

/-! ## The report -/

/-- The verdict on a comparison. -/
def verdict (c : TreeComparison) : String :=
  if c.hasDifferences then differencesVerdict else identicalVerdict

/-- The report on a comparison. -/
def render (c : TreeComparison) (maxItems : Nat) : String :=
  listing "Files only in base" c.onlyInBase maxItems
    ++ listing "Files only in head" c.onlyInHead maxItems
    ++ String.join (c.fileDiffs.map fun d => fileBlock d maxItems)
    ++ verdict c ++ "\n"

end ExportDiff.Report
