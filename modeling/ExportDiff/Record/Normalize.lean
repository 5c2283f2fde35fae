/-
# ExportDiff.Record.Normalize — what does not count as a difference

Normalizing a record leaves out fields that are always cosmetic, fields that the caller asked to
ignore, neutral defaults (a field with this text means the same as no field), and on request the
identifier, which every environment generates anew. A neutral default is matched by its text alone:
`false` or `"n"` is not neutral where `"N"` is.
-/

import ExportDiff.Record.Basic

namespace ExportDiff

/-! ## The rules -/

/-- Fields that are never compared. -/
def alwaysIgnored : List String := ["Comment", "DisplayOrder", "FieldDisplayOrder", "ElementLabel"]

/-- Fields with a text that means the same as the field being absent. -/
def neutralDefaults : List (String × String) :=
  [("SecurityClassification", "Public"),
   ("EventElementLabel", " "),
   ("PageLabel", " "),
   ("ShowSummary", "N"),
   ("Publish", "N"),
   ("ShowEventNotes", "N"),
   ("ShowSummaryChangeOption", "N"),
   ("ShowSummaryChangeOption", "No")]

/-- The identifier field. -/
def idField : String := "ID"

/-- What the caller chooses. -/
structure NormalizeOptions where
  ignored : List String
  stripId : Bool
  deriving DecidableEq, Repr

/-- Whether a field is never compared. -/
def isAlwaysIgnored (name : String) : Bool := alwaysIgnored.contains name

/-- Whether a field with this value means the same as no field. -/
def isNeutral (name : String) (x : Json) : Bool :=
  match x.text? with
  | some text => neutralDefaults.contains (name, text)
  | none => false

/-- Whether a field takes part in a comparison, the identifier rule apart. -/
def NormalizeOptions.keeps (options : NormalizeOptions) (name : String) (x : Json) : Bool :=
  !isAlwaysIgnored name && !options.ignored.contains name && !isNeutral name x

/-! ## Normalizing -/

/-- The record without what does not count. -/
def Record.normalize (options : NormalizeOptions) (r : Record) : Record :=
  let kept := r.filter options.keeps
  if options.stripId then kept.erase idField else kept

end ExportDiff
