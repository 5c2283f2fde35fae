/-
# ExportDiff.Record — one configuration entity

A record is a flat mapping from field names to JSON values. Its fields stand in name order, each name
once, whatever order and repetitions it was built from; the order in a file carries no meaning.
A field's value is one unit: nothing looks into an array or an object that a field holds.

An element of an export file that is no object becomes a record of one field, `scalarField`, so that
it can be compared like the others.
-/

import ExportDiff.Json.Basic
import ExportDiff.Json.Printer

namespace ExportDiff

/-- A configuration entity: its fields in strictly increasing name order. -/
structure Record where
  fields : List (String × Json)
  sorted : Assoc.Sorted fields

namespace Record

@[ext] theorem ext {r s : Record} (h : r.fields = s.fields) : r = s := by
  cases r; cases s; cases h; rfl

/-! ## Building -/

/-- The record without fields. -/
def empty : Record := ⟨[], Assoc.sorted_nil⟩

/-- The record with these fields; of two with one name the later one counts. -/
def ofFields (fields : List (String × Json)) : Record :=
  ⟨Assoc.ofList fields, Assoc.sorted_ofList fields⟩

/-- The field that holds an element that is no object. -/
def scalarField : String := "__value"

/-- The record of one element of an export file. -/
def ofJson : Json → Record
  | .obj members => ofFields members
  | x => ofFields [(scalarField, x)]

/-- The record as an object. -/
def toJson (r : Record) : Json := .obj r.fields

/-! ## Fields -/

/-- The value of a field. -/
def get? (r : Record) (name : String) : Option Json := Assoc.find? name r.fields

/-- Sets a field. -/
def insert (r : Record) (name : String) (x : Json) : Record :=
  ⟨Assoc.insert name x r.fields, r.sorted.insert name x⟩

/-- Removes a field. -/
def erase (r : Record) (name : String) : Record := ⟨Assoc.erase name r.fields, r.sorted.erase name⟩

/-- Sets a field, and gives the value that it had. -/
def exchange (r : Record) (name : String) (x : Json) : Option Json × Record :=
  ((Assoc.exchange name x r.fields).1, ⟨(Assoc.exchange name x r.fields).2, r.sorted.exchange name x⟩)

/-- Removes a field, and gives the value that it had. -/
def extract (r : Record) (name : String) : Option Json × Record :=
  ((Assoc.extract name r.fields).1, ⟨(Assoc.extract name r.fields).2, r.sorted.extract name⟩)

/-- Keeps the fields that a test accepts. -/
def filter (r : Record) (keep : String → Json → Bool) : Record :=
  ⟨r.fields.filter fun p => keep p.1 p.2, r.sorted.filter _⟩

/-- The number of fields. -/
def size (r : Record) : Nat := r.fields.length

/-- The field names, in order. -/
def names (r : Record) : List String := r.fields.map (·.1)

/-- Equality of records, field by field. -/
def same (r s : Record) : Bool := Json.sameMembers r.fields s.fields

@[simp] theorem get?_empty (name : String) : empty.get? name = none := rfl

@[simp] theorem get?_insert (r : Record) (name other : String) (x : Json) :
    (r.insert name x).get? other = if other = name then some x else r.get? other :=
  Assoc.find?_insert other name x r.fields

@[simp] theorem get?_erase (r : Record) (name other : String) :
    (r.erase name).get? other = if other = name then none else r.get? other :=
  Assoc.find?_erase other name r.fields

/-- A record is determined by the values of its fields. -/
theorem ext_get? {r s : Record} (h : ∀ name, r.get? name = s.get? name) : r = s :=
  Record.ext (r.sorted.ext s.sorted h)

end Record

end ExportDiff
