/-
# ExportDiff.Proofs.Multiset.Difference — what is missing and what is unexpected

The difference of two indexes has every key as often as its count on one side exceeds the count on
the other: an occurrence is neither lost nor repeated on the way from the counts to the lists, and
keys that one side only has are counted like any others. Both lists are in key order, and no key is on
both.

For two collections of records this is a law about their numbers of records under each key
(`compareRecords_eq_surplus`): nothing is reported exactly where the numbers agree, and otherwise what
is reported is what one side has more of.
-/

import Mathlib.Data.List.Infix
import ExportDiff.Comparison
import ExportDiff.Proofs.Multiset.Counting

namespace ExportDiff

/-! ## The rules for a file -/

/-- The identifiers of records are left out exactly where the relative path contains a certain name. -/
theorem stripsId_iff {relPath : String} :
    stripsId relPath = true ↔ "CaseEventToComplexTypes".toList <:+: relPath.toList :=
  Text.occursIn_iff

/-- What does not count as a difference between two files: the fields that the caller ignores, and the
identifiers where the relative path contains the name. -/
def CompareOptions.rules (options : CompareOptions) (relPath : String) : NormalizeOptions :=
  ⟨options.ignored, decide ("CaseEventToComplexTypes".toList <:+: relPath.toList)⟩

theorem CompareOptions.normalizeOptions_eq_rules (options : CompareOptions) (relPath : String) :
    options.normalizeOptions relPath = options.rules relPath := by
  have hstrips : stripsId relPath
      = decide ("CaseEventToComplexTypes".toList <:+: relPath.toList) := by
    rw [Bool.eq_iff_iff, stripsId_iff, decide_eq_true_iff]
  unfold normalizeOptions rules
  rw [hstrips]

/-! ## Differences -/

/-- Nothing differs exactly where neither list has an entry. -/
theorem MultisetDiff.isIdentical_iff {d : MultisetDiff} :
    d.isIdentical = true ↔ d.missing = [] ∧ d.unexpected = [] := by
  unfold isIdentical
  rw [Bool.and_eq_true, List.isEmpty_iff, List.isEmpty_iff]

namespace FrequencyIndex

variable {x y base head : FrequencyIndex} {k : String} {m : List (String × Nat)}

/-! ## The surplus of one side -/

theorem surplus_eq_filterMap (x y : FrequencyIndex) :
    x.surplus y = x.counts.filterMap fun p =>
      (if 0 < p.2 - y.count p.1 then some (p.2 - y.count p.1) else none).map (p.1, ·) := by
  unfold surplus
  congr 1
  funext p
  by_cases h : 0 < p.2 - y.count p.1
  · simp [h]
  · simp [h]

theorem sorted_surplus (x y : FrequencyIndex) : Assoc.Sorted (x.surplus y) := by
  rw [surplus_eq_filterMap]
  exact x.sorted_counts.filterMap fun k n => if 0 < n - y.count k then some (n - y.count k) else none

/-- A key finds its surplus, where it has one. -/
theorem getD_find?_surplus (x y : FrequencyIndex) (k : String) :
    (Assoc.find? k (x.surplus y)).getD 0 = x.count k - y.count k := by
  rw [surplus_eq_filterMap, x.sorted_counts.find?_filterMap fun k n =>
    if 0 < n - y.count k then some (n - y.count k) else none, ← getD_find?_counts x]
  cases Assoc.find? k x.counts with
  | none => exact (Nat.zero_sub (y.count k)).symm
  | some n =>
    rw [Option.bind_some, Option.getD_some]
    split
    · rfl
    · show 0 = _
      omega

/-! ## Each key as often as its count says -/

theorem count_expand (hm : Assoc.Sorted m) (k : String) :
    (expand m).count k = (Assoc.find? k m).getD 0 := by
  induction m with
  | nil => rfl
  | cons p rest ih =>
    obtain ⟨hp, hrest⟩ := Assoc.sorted_cons.mp hm
    have hsplit : expand (p :: rest) = List.replicate p.2 p.1 ++ expand rest := List.flatMap_cons
    rw [hsplit, List.count_append, List.count_replicate, ih hrest, Assoc.find?_cons]
    by_cases hk : p.1 = k
    · subst hk
      -- the keys behind the first one are greater, so it is not found again
      simp [Assoc.find?_eq_none_of_lt hp]
    · simp [hk]

theorem pairwise_expand (hm : Assoc.Sorted m) : (expand m).Pairwise (· ≤ ·) := by
  unfold expand
  rw [List.pairwise_flatMap]
  refine ⟨fun p _ => List.pairwise_replicate.mpr (Or.inr (String.le_refl p.1)), ?_⟩
  refine hm.imp ?_
  intro p q hpq a ha b hb
  rw [List.eq_of_mem_replicate ha, List.eq_of_mem_replicate hb]
  exact Std.le_of_lt hpq

/-! ## The two lists of a difference -/

/-- What is unexpected is what is missing the other way round. -/
theorem unexpected_diff (base head : FrequencyIndex) :
    (base.diff head).unexpected = (head.diff base).missing := rfl

/-- A key is missing as often as the base has it more often than the head. -/
theorem count_missing (base head : FrequencyIndex) (k : String) :
    (base.diff head).missing.count k = base.count k - head.count k := by
  show (expand (base.surplus head)).count k = _
  rw [count_expand (sorted_surplus base head), getD_find?_surplus]

/-- A key is unexpected as often as the head has it more often than the base. -/
theorem count_unexpected (base head : FrequencyIndex) (k : String) :
    (base.diff head).unexpected.count k = head.count k - base.count k := by
  rw [unexpected_diff]
  exact count_missing head base k

theorem pairwise_missing (base head : FrequencyIndex) :
    (base.diff head).missing.Pairwise (· ≤ ·) := pairwise_expand (sorted_surplus base head)

theorem pairwise_unexpected (base head : FrequencyIndex) :
    (base.diff head).unexpected.Pairwise (· ≤ ·) := by
  rw [unexpected_diff]
  exact pairwise_missing head base

/-- What the base has more often, the head has not. -/
theorem not_mem_unexpected_of_mem_missing (h : k ∈ (base.diff head).missing) :
    k ∉ (base.diff head).unexpected := by
  intro hmem
  have hmissing := List.count_pos_iff.mpr h
  have hunexpected := List.count_pos_iff.mpr hmem
  rw [count_missing] at hmissing
  rw [count_unexpected] at hunexpected
  omega

theorem eq_nil_iff_count_eq_zero {keys : List String} : keys = [] ↔ ∀ k, keys.count k = 0 := by
  constructor
  · rintro rfl k
    rfl
  · intro h
    apply List.eq_nil_iff_forall_not_mem.mpr
    intro k hk
    exact Nat.lt_irrefl 0 (h k ▸ List.count_pos_iff.mpr hk)

/-- Nothing differs exactly where all counts agree. -/
theorem isIdentical_diff_iff (base head : FrequencyIndex) :
    (base.diff head).isIdentical = true ↔ ∀ k, base.count k = head.count k := by
  rw [MultisetDiff.isIdentical_iff, eq_nil_iff_count_eq_zero, eq_nil_iff_count_eq_zero]
  simp only [count_missing, count_unexpected]
  constructor
  · rintro ⟨hmissing, hunexpected⟩ k
    have h₁ := hmissing k
    have h₂ := hunexpected k
    omega
  · intro h
    exact ⟨fun k => by rw [h k, Nat.sub_self], fun k => by rw [h k, Nat.sub_self]⟩

end FrequencyIndex

/-! ## Two collections of records -/

open FrequencyIndex

/-- The differences between two collections, where there are any. -/
theorem compareRecords_eq_some {options : CompareOptions} {relPath : String}
    {base head : List Record} (h : compareRecords options relPath base head ≠ none) :
    let baseIndex := ofRecords (options.rules relPath) base
    let headIndex := ofRecords (options.rules relPath) head
    compareRecords options relPath base head
      = some ⟨relPath, baseIndex.diff headIndex, baseIndex, headIndex⟩ := by
  unfold compareRecords at h ⊢
  rw [options.normalizeOptions_eq_rules] at h ⊢
  dsimp only at h ⊢
  split at h
  · exact absurd rfl h
  · next hdiff => rw [if_neg hdiff]

/-- Two collections are taken for identical exactly where every key has as many records on both
sides. -/
theorem compareRecords_eq_none_iff (options : CompareOptions) (relPath : String)
    (base head : List Record) :
    compareRecords options relPath base head = none ↔
      ∀ k, (options.rules relPath).occurrences base k
        = (options.rules relPath).occurrences head k := by
  simp only [← count_ofRecords]
  rw [← isIdentical_diff_iff]
  unfold compareRecords
  rw [options.normalizeOptions_eq_rules]
  dsimp only
  split
  · next hdiff => exact iff_of_true rfl hdiff
  · next hdiff => exact iff_of_false (Option.some_ne_none _) hdiff

/-- Two collections of records differ by what one side has more of under each key. -/
theorem compareRecords_eq_surplus (options : CompareOptions) (relPath : String)
    (base head : List Record) :
    let inBase := (options.rules relPath).occurrences base
    let inHead := (options.rules relPath).occurrences head
    (compareRecords options relPath base head = none ↔ ∀ k, inBase k = inHead k) ∧
      ((∃ k, inBase k ≠ inHead k) → ∃ d, compareRecords options relPath base head = some d ∧
        d.relPath = relPath ∧
        (∀ k, d.diff.missing.count k = inBase k - inHead k) ∧
        (∀ k, d.diff.unexpected.count k = inHead k - inBase k) ∧
        d.diff.missing.Pairwise (· ≤ ·) ∧ d.diff.unexpected.Pairwise (· ≤ ·) ∧
        (∀ k ∈ d.diff.missing, k ∉ d.diff.unexpected) ∧
        (∀ k, d.base.count k = inBase k) ∧ ∀ k, d.head.count k = inHead k) := by
  intro inBase inHead
  have hnone := compareRecords_eq_none_iff options relPath base head
  refine ⟨hnone, ?_⟩
  rintro ⟨k, hk⟩
  have hsome := compareRecords_eq_some fun h => hk (hnone.mp h k)
  have hbase : ∀ k, (ofRecords (options.rules relPath) base).count k = inBase k :=
    count_ofRecords _ base
  have hhead : ∀ k, (ofRecords (options.rules relPath) head).count k = inHead k :=
    count_ofRecords _ head
  refine ⟨_, hsome, rfl, ?_, ?_, pairwise_missing _ _, pairwise_unexpected _ _,
    fun k => not_mem_unexpected_of_mem_missing, hbase, hhead⟩
  · intro k
    rw [count_missing, hbase, hhead]
  · intro k
    rw [count_unexpected, hbase, hhead]

end ExportDiff
