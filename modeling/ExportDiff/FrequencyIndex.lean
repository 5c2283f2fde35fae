/-
# ExportDiff.FrequencyIndex — how often each key occurs

An index counts the keys of a collection of records and keeps, for every key, the record that was
counted first. It consists of two tables: the entries by key, and the keys in the order in which they
were first counted, which is the order in which candidates for a closest match are looked at. A key of
the order is looked up among the entries, and passed over where it has none.
-/

import ExportDiff.Record.Key
import ExportDiff.Record.Normalize

namespace ExportDiff

/-- What is kept for a key: its number of occurrences, and the record that was counted first. -/
structure FrequencyIndex.Entry where
  count : Nat
  representative : Record

/-- The entries of the keys that were counted, and these keys in the order of first occurrence. -/
structure FrequencyIndex where
  entries : List (String × FrequencyIndex.Entry)
  insertionOrder : List String
  sorted : Assoc.Sorted entries

namespace FrequencyIndex

/-- The index that has counted nothing. -/
def empty : FrequencyIndex := ⟨[], [], Assoc.sorted_nil⟩

/-! ## Looking up -/

/-- The entry of a key. -/
def entryAt? (index : FrequencyIndex) (key : String) : Option Entry := Assoc.find? key index.entries

/-- How often a key occurs. -/
def count (index : FrequencyIndex) (key : String) : Nat := (index.entryAt? key).elim 0 (·.count)

/-- The first record with a key. -/
def representative? (index : FrequencyIndex) (key : String) : Option Record :=
  (index.entryAt? key).map (·.representative)

/-- The keys with their counts, in key order. -/
def counts (index : FrequencyIndex) : List (String × Nat) :=
  index.entries.map fun (key, e) => (key, e.count)

/-- The keys with their first records, in order of first occurrence. -/
def representatives (index : FrequencyIndex) : List (String × Record) :=
  index.insertionOrder.filterMap fun key => (index.entryAt? key).map fun e => (key, e.representative)

/-- The number of different keys. -/
def size (index : FrequencyIndex) : Nat := index.entries.length

/-- The number of records counted. -/
def total (index : FrequencyIndex) : Nat := Assoc.sumOf (·.count) index.entries

/-- Whether two entries agree on the count and the record. -/
def Entry.same (e f : Entry) : Bool := e.count == f.count && e.representative.same f.representative

/-- Whether two indexes agree on both tables. -/
def same (x y : FrequencyIndex) : Bool :=
  x.entries.length == y.entries.length &&
    ((x.entries.zip y.entries).all fun (p, q) => p.1 == q.1 && p.2.same q.2) &&
    x.insertionOrder == y.insertionOrder

/-! ## Counting -/

/-- Sets the entry of a key. -/
def setEntry (index : FrequencyIndex) (key : String) (e : Entry) : FrequencyIndex :=
  { index with
    entries := Assoc.insert key e index.entries
    sorted := index.sorted.insert key e }

/-- Counts one occurrence of a key. The record is kept, and the key goes to the end of the order, only
if the key is new. -/
def insert (index : FrequencyIndex) (key : String) (r : Record) : FrequencyIndex :=
  match index.entryAt? key with
  | some e => index.setEntry key { e with count := e.count + 1 }
  | none => { index.setEntry key ⟨1, r⟩ with insertionOrder := index.insertionOrder ++ [key] }

/-- Counts a record under the key of what is left of it after normalizing. -/
def add (index : FrequencyIndex) (options : NormalizeOptions) (r : Record) : FrequencyIndex :=
  index.insert (r.normalize options).key (r.normalize options)

/-- The index of a collection of records. -/
def ofRecords (options : NormalizeOptions) (records : List Record) : FrequencyIndex :=
  records.foldl (fun index r => index.add options r) empty

/-! ## One step -/

@[simp] theorem entryAt?_empty (k : String) : empty.entryAt? k = none := rfl

/-- What an insertion does to the entries: the entry of the key is made or counted up, and no other one
changes. -/
theorem entryAt?_insert (index : FrequencyIndex) (key k : String) (r : Record) :
    (index.insert key r).entryAt? k
      = if k = key then
          some ((index.entryAt? key).elim ⟨1, r⟩ fun e => { e with count := e.count + 1 })
        else index.entryAt? k := by
  unfold insert
  cases index.entryAt? key with
  | some e => exact Assoc.find?_insert k key _ index.entries
  | none => exact Assoc.find?_insert k key _ index.entries

/-- What an insertion does to the order: a key without an entry goes to the end. -/
theorem insertionOrder_insert (index : FrequencyIndex) (key : String) (r : Record) :
    (index.insert key r).insertionOrder
      = if (index.entryAt? key).isSome then index.insertionOrder
        else index.insertionOrder ++ [key] := by
  unfold insert
  cases index.entryAt? key with
  | some e => rfl
  | none => rfl

end FrequencyIndex

end ExportDiff
