/-
# ExportDiff.Proofs.Tree.Pairing — which files two tables share

A table lists the files below a directory by their keys, in strictly increasing order. Pairing the
files of two tables splits their keys three ways, the keys of one table only and the keys of both,
each in strictly increasing order and none twice; a shared key comes with the path that each table has
for it.
-/

import Mathlib.Data.Finset.Card
import Mathlib.Data.Finset.Dedup
import ExportDiff.Comparison
import ExportDiff.Proofs.Assoc

namespace ExportDiff

/-! ## Keys -/

/-- The keys of a table. -/
def FileTable.keys (table : FileTable) : Finset String := (table.map (·.1)).toFinset

theorem FileTable.mem_keys {table : FileTable} {key : String} :
    key ∈ table.keys ↔ key ∈ table.map (·.1) := List.mem_toFinset

theorem FileTable.mem_keys_iff_find? {table : FileTable} {key : String} :
    key ∈ table.keys ↔ ∃ path, Assoc.find? key table = some path := by
  rw [mem_keys, ← Assoc.isSome_find?_iff, Option.isSome_iff_exists]

/-! ## Keys of one table only -/

section OnlyIn

variable {table other : FileTable} {key : String}

/-- The keys of a table that the other one does not have. -/
theorem mem_keysOnlyIn : key ∈ keysOnlyIn table other ↔ key ∈ table.keys ∧ key ∉ other.keys := by
  unfold keysOnlyIn
  rw [List.mem_filter, Option.isNone_iff_eq_none, Assoc.find?_eq_none_iff_not_mem,
    FileTable.mem_keys, FileTable.mem_keys]

theorem pairwise_keysOnlyIn (h : Assoc.Sorted table) :
    (keysOnlyIn table other).Pairwise (· < ·) :=
  List.Pairwise.filter _ h.pairwise_keys

end OnlyIn

/-! ## Keys of both tables -/

section Shared

variable {base head : FileTable} {key : String} {basePath headPath : Path}

theorem sharedFiles_eq_filterMap (base head : FileTable) :
    sharedFiles base head = base.filterMap fun f =>
      ((Assoc.find? f.1 head).map (f.2, ·)).map (f.1, ·) := by
  unfold sharedFiles
  congr 1
  funext f
  rw [Option.map_map]
  rfl

theorem sorted_sharedFiles (hbase : Assoc.Sorted base) (head : FileTable) :
    Assoc.Sorted (sharedFiles base head) := by
  rw [sharedFiles_eq_filterMap]
  exact hbase.filterMap fun key path => (Assoc.find? key head).map (path, ·)

/-- A key is shared with the two paths that it has in the tables. -/
theorem mem_sharedFiles (hbase : Assoc.Sorted base) :
    (key, basePath, headPath) ∈ sharedFiles base head ↔
      Assoc.find? key base = some basePath ∧ Assoc.find? key head = some headPath := by
  rw [(sorted_sharedFiles hbase head).mem_iff_find?, sharedFiles_eq_filterMap,
    hbase.find?_filterMap fun key path => (Assoc.find? key head).map (path, ·)]
  constructor
  · intro h
    obtain ⟨path, hpath, h⟩ := Option.bind_eq_some_iff.mp h
    obtain ⟨other, hother, h⟩ := Option.map_eq_some_iff.mp h
    obtain ⟨rfl, rfl⟩ := Prod.mk.inj h
    exact ⟨hpath, hother⟩
  · rintro ⟨hpath, hother⟩
    rw [hpath, hother]
    rfl

theorem mem_keys_sharedFiles (hbase : Assoc.Sorted base) :
    key ∈ (sharedFiles base head).map (·.1) ↔ key ∈ base.keys ∩ head.keys := by
  rw [Finset.mem_inter, FileTable.mem_keys_iff_find?, FileTable.mem_keys_iff_find?, List.mem_map]
  constructor
  · rintro ⟨⟨key, basePath, headPath⟩, hmem, rfl⟩
    obtain ⟨hpath, hother⟩ := (mem_sharedFiles hbase).mp hmem
    exact ⟨⟨basePath, hpath⟩, ⟨headPath, hother⟩⟩
  · rintro ⟨⟨basePath, hpath⟩, headPath, hother⟩
    exact ⟨(key, basePath, headPath), (mem_sharedFiles hbase).mpr ⟨hpath, hother⟩, rfl⟩

/-- Every shared key is paired once. -/
theorem length_sharedFiles (hbase : Assoc.Sorted base) :
    (sharedFiles base head).length = (base.keys ∩ head.keys).card := by
  have hnodup := (sorted_sharedFiles hbase head).nodup_keys
  have hkeys : ((sharedFiles base head).map (·.1)).toFinset = base.keys ∩ head.keys := by
    ext key
    rw [List.mem_toFinset, mem_keys_sharedFiles hbase]
  calc (sharedFiles base head).length
      = ((sharedFiles base head).map (·.1)).length := by rw [List.length_map]
    _ = ((sharedFiles base head).map (·.1)).toFinset.card :=
      (List.toFinset_card_of_nodup hnodup).symm
    _ = (base.keys ∩ head.keys).card := by rw [hkeys]

end Shared

end ExportDiff
