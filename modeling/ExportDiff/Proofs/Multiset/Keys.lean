/-
# ExportDiff.Proofs.Multiset.Keys — collections as multisets of keys

All that a comparison sees of a collection of records is the multiset of their keys. What is missing
is, as a multiset, the keys of the base less the keys of the head, and what is unexpected the keys of
the head less those of the base. Two collections are taken for identical exactly where their records
can be paired off so that both of a pair are alike after normalizing.
-/

import Mathlib.Data.Multiset.Count
import Mathlib.Data.Multiset.Filter
import ExportDiff.Proofs.Multiset.Difference
import ExportDiff.Proofs.Record.Content

namespace ExportDiff

namespace NormalizeOptions

variable (options : NormalizeOptions)

/-! ## The keys of a collection -/

/-- The keys of some records after normalizing, each as often as there are records with it. -/
def keys (records : List Record) : Multiset String :=
  (records : Multiset Record).map fun r => (r.normalize options).key

theorem count_keys (records : List Record) (k : String) :
    (options.keys records).count k = options.occurrences records k := by
  unfold keys occurrences
  rw [Multiset.map_coe, Multiset.coe_count, List.count_eq_countP, List.countP_map]
  rfl

/-- The differences between two collections. -/
def difference (base head : List Record) : MultisetDiff :=
  (FrequencyIndex.ofRecords options base).diff (FrequencyIndex.ofRecords options head)

/-- What is missing is what the base has beyond the head. -/
theorem coe_missing (base head : List Record) :
    ((options.difference base head).missing : Multiset String)
      = options.keys base - options.keys head := by
  unfold difference
  ext k
  rw [Multiset.coe_count, Multiset.count_sub, count_keys, count_keys, FrequencyIndex.count_missing,
    FrequencyIndex.count_ofRecords, FrequencyIndex.count_ofRecords]

/-! ## Pairing records off -/

/-- The same records, each as often, but for what normalizing leaves out: both collections can be
paired off so that the records of a pair are alike. -/
def SameRecords (base head : List Record) : Prop :=
  Multiset.Rel Record.Alike ((base : Multiset Record).map (Record.normalize options))
    ((head : Multiset Record).map (Record.normalize options))

/-- Records can be paired off exactly where the multisets of their keys are equal. -/
theorem sameRecords_iff_keys_eq (base head : List Record) :
    options.SameRecords base head ↔ options.keys base = options.keys head := by
  -- records are alike where their keys are equal, and being paired off by equality is equality
  have halike : Record.Alike = fun r s => r.key = s.key := by
    funext r s
    exact propext Record.key_eq_iff_alike.symm
  unfold SameRecords keys
  rw [halike, Multiset.rel_map, ← Multiset.rel_eq, Multiset.rel_map]

end NormalizeOptions

/-- Two files are taken for identical exactly where their records can be paired off. -/
theorem compareRecords_eq_none_iff_sameRecords (options : CompareOptions) (relPath : String)
    (base head : List Record) :
    compareRecords options relPath base head = none ↔
      (options.rules relPath).SameRecords base head := by
  rw [compareRecords_eq_none_iff, NormalizeOptions.sameRecords_iff_keys_eq, Multiset.ext]
  simp only [NormalizeOptions.count_keys]

end ExportDiff
