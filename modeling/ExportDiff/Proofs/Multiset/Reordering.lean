/-
# ExportDiff.Proofs.Multiset.Reordering — the order of the records carries no meaning

Reordering the records of both files changes neither whether anything is reported, nor what is missing
or unexpected, nor the counts. An index shows the first record with a key, but no two records have one
key, so it shows the same record. Only the order of the candidates for a closest match changes, and
with it which of several equally similar records is found, not how similar it is
(`compareRecords_perm`).
-/

import ExportDiff.Proofs.Multiset.Difference
import ExportDiff.Proofs.Multiset.Representatives
import ExportDiff.Proofs.Record.Identity
import ExportDiff.Proofs.Similarity.ClosestMatch

namespace ExportDiff

/-! ## Indexes -/

section Indexes

variable {options : NormalizeOptions} {records others : List Record} {k : String}

/-- Since no two records have one key, the first one with a key is the only one. -/
theorem find?_key_eq_some_iff {r : Record} :
    records.find? (·.key = k) = some r ↔ r ∈ records ∧ r.key = k := by
  constructor
  · intro h
    exact ⟨List.mem_of_find?_eq_some h, by simpa using List.find?_some h⟩
  · rintro ⟨hr, rfl⟩
    have hsome : (records.find? (·.key = r.key)).isSome = true :=
      List.find?_isSome.mpr ⟨r, hr, decide_eq_true rfl⟩
    obtain ⟨s, hs⟩ := Option.isSome_iff_exists.mp hsome
    have hkey : s.key = r.key := by simpa using List.find?_some hs
    rw [hs, Record.key_injective hkey]

namespace FrequencyIndex

theorem count_perm (h : records.Perm others) (k : String) :
    (ofRecords options records).count k = (ofRecords options others).count k := by
  rw [count_ofRecords, count_ofRecords]
  exact h.countP_eq _

theorem representative?_perm (h : records.Perm others) (k : String) :
    (ofRecords options records).representative? k
      = (ofRecords options others).representative? k := by
  rw [representative?_ofRecords, representative?_ofRecords]
  ext r
  rw [find?_key_eq_some_iff, find?_key_eq_some_iff, (h.map _).mem_iff]

theorem representatives_subset_of_perm (h : records.Perm others) :
    (ofRecords options records).representatives ⊆ (ofRecords options others).representatives := by
  rintro ⟨k, r⟩ hmem
  rw [mem_representatives_ofRecords_iff] at hmem ⊢
  rw [← hmem]
  exact (representative?_perm h k).symm

/-- Differences depend on the counts alone. -/
theorem missing_eq_of_count_eq {x x' y y' : FrequencyIndex} (hx : ∀ k, x.count k = x'.count k)
    (hy : ∀ k, y.count k = y'.count k) : (x.diff y).missing = (x'.diff y').missing := by
  refine List.Perm.eq_of_pairwise (fun _ _ _ _ => String.le_antisymm) (pairwise_missing x y)
    (pairwise_missing x' y') ?_
  rw [List.perm_iff_count]
  intro k
  rw [count_missing, count_missing, hx, hy]

theorem diff_eq_of_count_eq {x x' y y' : FrequencyIndex} (hx : ∀ k, x.count k = x'.count k)
    (hy : ∀ k, y.count k = y'.count k) : x.diff y = x'.diff y' := by
  have hmissing := missing_eq_of_count_eq hx hy
  have hunexpected := missing_eq_of_count_eq hy hx
  rw [← unexpected_diff, ← unexpected_diff] at hunexpected
  exact congrArg₂ MultisetDiff.mk hmissing hunexpected

/-- A key that was counted has a record. -/
theorem exists_representative? {index : FrequencyIndex} (h : 0 < index.count k) :
    ∃ r, index.representative? k = some r := by
  unfold count at h
  unfold representative?
  cases hentry : index.entryAt? k with
  | none =>
    rw [hentry] at h
    exact absurd h (Nat.lt_irrefl 0)
  | some e => exact ⟨e.representative, rfl⟩

theorem count_pos_of_mem_missing {x y : FrequencyIndex} (h : k ∈ (x.diff y).missing) :
    0 < x.count k := by
  have hcount := List.count_pos_iff.mpr h
  rw [count_missing] at hcount
  omega

/-- Both pairs of indexes show the same record for each of the keys, and for this record closest
matches with the same share, if any. -/
def SameMatches (keys : List String) (shown opposite shown' opposite' : FrequencyIndex) : Prop :=
  ∀ k ∈ keys, ∃ r, shown.representative? k = some r ∧ shown'.representative? k = some r ∧
    Option.Rel BestMatch.SameShare (opposite.bestMatch? r) (opposite'.bestMatch? r)

theorem sameMatches_perm {base base' head head' : List Record} (hbase : base.Perm base')
    (hhead : head.Perm head') :
    SameMatches ((ofRecords options base).diff (ofRecords options head)).missing
      (ofRecords options base) (ofRecords options head)
      (ofRecords options base') (ofRecords options head') := by
  intro k hk
  obtain ⟨r, hr⟩ := exists_representative? (count_pos_of_mem_missing hk)
  refine ⟨r, hr, ?_, ?_⟩
  · rw [← representative?_perm hbase, hr]
  · exact bestMatch?_rel (representatives_subset_of_perm hhead)
      (representatives_subset_of_perm hhead.symm) r

end FrequencyIndex

end Indexes

/-! ## Reports -/

open FrequencyIndex

/-- Two reports on the same records: they differ at most in which of several equally similar records
is shown as the closest match. -/
structure FileDiff.SameReport (d d' : FileDiff) : Prop where
  relPath : d.relPath = d'.relPath
  diff : d.diff = d'.diff
  base_count (k : String) : d.base.count k = d'.base.count k
  head_count (k : String) : d.head.count k = d'.head.count k
  base_representative (k : String) : d.base.representative? k = d'.base.representative? k
  head_representative (k : String) : d.head.representative? k = d'.head.representative? k
  missing_matches : SameMatches d.diff.missing d.base d.head d'.base d'.head
  unexpected_matches : SameMatches d.diff.unexpected d.head d.base d'.head d'.base

/-- Reordering the records of both files reports nothing where nothing was reported, and otherwise the
same differences. -/
theorem compareRecords_perm {base base' head head' : List Record} (hbase : base.Perm base')
    (hhead : head.Perm head') (options : CompareOptions) (relPath : String) :
    Option.Rel FileDiff.SameReport (compareRecords options relPath base head)
      (compareRecords options relPath base' head') := by
  have hdiff : (ofRecords (options.normalizeOptions relPath) base).diff
        (ofRecords (options.normalizeOptions relPath) head)
      = (ofRecords (options.normalizeOptions relPath) base').diff
        (ofRecords (options.normalizeOptions relPath) head') :=
    diff_eq_of_count_eq (count_perm hbase) (count_perm hhead)
  unfold compareRecords
  dsimp only
  rw [← hdiff]
  split
  · exact .none
  · exact .some
      { relPath := rfl
        diff := rfl
        base_count := count_perm hbase
        head_count := count_perm hhead
        base_representative := representative?_perm hbase
        head_representative := representative?_perm hhead
        missing_matches := sameMatches_perm hbase hhead
        unexpected_matches := sameMatches_perm hhead hbase }

/-- Two candidates for a closest match that change places. -/
theorem compareRecords_perm_of_swapped :
    let r (text : String) := Record.ofFields [("Name", .str text)]
    let base := [r "a", r "a", r "d"]
    let base' := [r "a", r "d", r "a"]
    let head := [r "d", r "b", r "c"]
    let head' := [r "d", r "c", r "b"]
    let options : CompareOptions := ⟨[]⟩
    let candidates := fun records : List Record =>
      (ofRecords ⟨[], false⟩ records).representatives.map (·.1)
    base.Perm base' ∧ head.Perm head' ∧
      candidates head = [(r "d").key, (r "b").key, (r "c").key] ∧
      candidates head' = [(r "d").key, (r "c").key, (r "b").key] ∧
      compareRecords options "Case.json" base head ≠ none ∧
      Option.Rel FileDiff.SameReport (compareRecords options "Case.json" base head)
        (compareRecords options "Case.json" base' head') := by
  intro r base base' head head' options candidates
  have hbase : base.Perm base' := (List.Perm.swap _ _ _).cons _
  have hhead : head.Perm head' := (List.Perm.swap _ _ _).cons _
  refine ⟨hbase, hhead, by decide +kernel, by decide +kernel, ?_,
    compareRecords_perm hbase hhead options "Case.json"⟩
  rw [Ne, compareRecords_eq_none_iff]
  intro hcounts
  have hcount := hcounts (r "a").key
  revert hcount
  decide +kernel

end ExportDiff
