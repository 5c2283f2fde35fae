/-
# ExportDiff.Proofs.Multiset.Counting — an index counts every record once

Each step of building an index raises the count of one key, the key of what normalizing leaves of the
record, and no other count. So an index over a list of records has for every key the number of records
with this key, whatever the order of the list, and nothing for a key of no record.

The counts of an index are listed in strictly increasing key order, and the pairs of the list are the
keys with what they are counted with.
-/

import ExportDiff.FrequencyIndex
import ExportDiff.Proofs.Assoc

namespace ExportDiff

/-- How many of some records have a key, after normalizing. -/
def NormalizeOptions.occurrences (options : NormalizeOptions) (records : List Record)
    (key : String) : Nat :=
  records.countP fun r => (r.normalize options).key = key

namespace FrequencyIndex

variable {index : FrequencyIndex} {key k : String} {r : Record}

/-! ## One step -/

@[simp] theorem count_empty (key : String) : empty.count key = 0 := rfl

/-- Counting a key raises its count by one and changes no other one. -/
@[simp] theorem count_insert (index : FrequencyIndex) (key k : String) (r : Record) :
    (index.insert key r).count k = index.count k + if key = k then 1 else 0 := by
  unfold count
  rw [entryAt?_insert]
  by_cases hk : k = key
  · subst hk
    rw [if_pos rfl, if_pos rfl]
    cases index.entryAt? k with
    | none => rfl
    | some e => rfl
  · rw [if_neg hk, if_neg (Ne.symm hk), Nat.add_zero]

theorem count_add (index : FrequencyIndex) (options : NormalizeOptions) (r : Record)
    (k : String) : (index.add options r).count k
      = index.count k + if (r.normalize options).key = k then 1 else 0 :=
  count_insert index _ k _

/-! ## A whole list -/

/-- Counting goes on from the counts that an index already has. -/
theorem count_foldl_add (options : NormalizeOptions) (records : List Record)
    (index : FrequencyIndex) (k : String) :
    (records.foldl (fun index r => index.add options r) index).count k
      = index.count k + options.occurrences records k := by
  induction records generalizing index with
  | nil => rfl
  | cons r rest ih =>
    rw [List.foldl_cons, ih, count_add]
    unfold NormalizeOptions.occurrences
    rw [List.countP_cons]
    simp only [decide_eq_true_eq]
    omega

/-- An index has for every key the number of records with this key. -/
theorem count_ofRecords (options : NormalizeOptions) (records : List Record) (k : String) :
    (ofRecords options records).count k = options.occurrences records k := by
  unfold ofRecords
  rw [count_foldl_add, count_empty, Nat.zero_add]

/-! ## The list of counts -/

/-- The counts stand in strictly increasing key order. -/
theorem sorted_counts (index : FrequencyIndex) : Assoc.Sorted index.counts :=
  index.sorted.map_snd Entry.count

/-- What a key finds among the counts is the count of its entry. -/
theorem find?_counts (index : FrequencyIndex) (k : String) :
    Assoc.find? k index.counts = (index.entryAt? k).map (·.count) :=
  Assoc.find?_map_snd Entry.count k index.entries

/-- A key without an entry is counted as often as it finds, which is not at all. -/
theorem getD_find?_counts (index : FrequencyIndex) (k : String) :
    (Assoc.find? k index.counts).getD 0 = index.count k := by
  rw [find?_counts]
  unfold count
  cases index.entryAt? k with
  | none => rfl
  | some e => rfl

end FrequencyIndex

end ExportDiff
