/-
# ExportDiff.Record.Key — the text that identifies a record's content

The key of a record is its compact JSON text in printable ASCII: names in order, no blanks, strings
always quoted. Records with the same names and values have the same key, and a reader can read the
record back from it.
-/

import ExportDiff.Record.Basic

namespace ExportDiff.Record

/-- The key of a record, as characters. -/
def keyChars (r : Record) : List Char := r.toJson.write Json.quoteAscii

/-- The key of a record. -/
def key (r : Record) : String := String.ofList r.keyChars

/-- The compact JSON text of a record. -/
def compact (r : Record) : String := r.toJson.compact

/-- The indented JSON text of a record. -/
def pretty (r : Record) : String := r.toJson.pretty

@[simp] theorem toList_key (r : Record) : r.key.toList = r.keyChars := String.toList_ofList

end ExportDiff.Record
