/-
# ExportDiff.Proofs.Multiset.Insertion — an index tallies the insertions that made it

An index that starts empty and is changed by nothing but insertions says of them what there is to say
(`Tallies`): how often each key was inserted, how many insertions there were, which keys came first,
and the record that came first with each of them. Its two tables stay in step all the while, so none of
the keys is passed over where candidates are listed, and they are listed in the order in which they were
first inserted.

Counting normalized records is one way of inserting. The record that such an index shows for a key has
this key, and normalizing it again leaves it as it is (`tallies_and_representative_fixed`).
-/

import Mathlib.Data.Finset.Dedup
import Mathlib.Data.Finset.Card
import Mathlib.Data.List.Permutation
import ExportDiff.Proofs.Multiset.Counting
import ExportDiff.Proofs.Multiset.Representatives
import ExportDiff.Proofs.Record.Content
import ExportDiff.Proofs.Text.Utf8

namespace ExportDiff.FrequencyIndex

/-! ## One insertion -/

/-- A new key goes behind the others; a known one stays where it is. -/
theorem InStep.insertionOrder_insert {index : FrequencyIndex} (h : index.InStep) (key : String)
    (r : Record) :
    (index.insert key r).insertionOrder
      = if key ∈ index.insertionOrder then index.insertionOrder
        else index.insertionOrder ++ [key] := by
  rw [FrequencyIndex.insertionOrder_insert]
  by_cases hkey : key ∈ index.insertionOrder
  · rw [if_pos hkey, if_pos ((h.mem_order_iff key).mp hkey)]
  · rw [if_neg hkey, if_neg (mt (h.mem_order_iff key).mpr hkey)]

theorem total_insert (index : FrequencyIndex) (key : String) (r : Record) :
    (index.insert key r).total = index.total + 1 := by
  have hsum := index.sorted.sumOf_insert key
  unfold insert
  cases hentry : index.entryAt? key with
  | none =>
    have hsum := hsum ⟨1, r⟩ (·.count)
    rw [show Assoc.find? key index.entries = none from hentry] at hsum
    exact hsum
  | some e =>
    have hsum := hsum { e with count := e.count + 1 } (·.count)
    rw [show Assoc.find? key index.entries = some e from hentry, Option.elim_some,
      ← Nat.add_assoc, Nat.add_right_comm, Nat.add_left_inj] at hsum
    exact hsum

/-! ## A sequence of insertions -/

section Run

variable {insertions : List (String × Record)} {k : String}

theorem count_ofInsertions (insertions : List (String × Record)) (k : String) :
    (ofInsertions insertions).count k = (insertions.map (·.1)).count k := by
  induction insertions using List.reverseRecOn with
  | nil => rfl
  | append_singleton insertions p ih =>
    rw [ofInsertions_append_singleton, count_insert, ih, List.map_append, List.count_append,
      List.map_singleton, List.count_singleton]
    simp only [beq_iff_eq]

theorem total_ofInsertions (insertions : List (String × Record)) :
    (ofInsertions insertions).total = insertions.length := by
  induction insertions using List.reverseRecOn with
  | nil => rfl
  | append_singleton insertions p ih =>
    rw [ofInsertions_append_singleton, total_insert, ih, List.length_append,
      List.length_singleton]

/-- The order has the keys of the insertions, each at its first place. -/
theorem insertionOrder_ofInsertions (insertions : List (String × Record)) :
    (ofInsertions insertions).insertionOrder = (insertions.map (·.1)).eraseDups := by
  induction insertions using List.reverseRecOn with
  | nil => rfl
  | append_singleton insertions p ih =>
    rw [ofInsertions_append_singleton, (inStep_ofInsertions insertions).insertionOrder_insert, ih,
      List.map_append, List.map_singleton, List.eraseDups_append]
    by_cases hp : p.1 ∈ insertions.map (·.1)
    · have hknown : [p.1].removeAll (insertions.map (·.1)) = [] := by
        simpa [List.removeAll] using hp
      rw [if_pos (List.mem_eraseDups.mpr hp), hknown, List.eraseDups_nil, List.append_nil]
    · have hnew : [p.1].removeAll (insertions.map (·.1)) = [p.1] := by
        simpa [List.removeAll] using hp
      rw [if_neg (mt List.mem_eraseDups.mp hp), hnew]
      rfl

theorem isSome_entryAt?_ofInsertions_iff :
    ((ofInsertions insertions).entryAt? k).isSome = true ↔ k ∈ insertions.map (·.1) := by
  rw [← (inStep_ofInsertions insertions).mem_order_iff, insertionOrder_ofInsertions,
    List.mem_eraseDups]

theorem size_ofInsertions (insertions : List (String × Record)) :
    (ofInsertions insertions).size = (insertions.map (·.1)).toFinset.card := by
  have hstep := inStep_ofInsertions insertions
  have hkeys : (ofInsertions insertions).keys.toFinset = (insertions.map (·.1)).toFinset := by
    ext k
    rw [List.mem_toFinset, List.mem_toFinset, hstep.mem_keys_iff, isSome_entryAt?_ofInsertions_iff]
  rw [← hkeys, List.toFinset_card_of_nodup hstep.nodup_keys, keys, List.length_map,
    hstep.length_representatives]

/-- A key keeps the record of its first insertion. -/
theorem representative?_ofInsertions (insertions : List (String × Record)) (k : String) :
    (ofInsertions insertions).representative? k
      = (insertions.find? (·.1 = k)).map (·.2) := by
  induction insertions using List.reverseRecOn with
  | nil => rfl
  | append_singleton insertions p ih =>
    rw [ofInsertions_append_singleton, representative?_insert, ih, List.find?_append]
    cases insertions.find? (·.1 = k) with
    | some q => rfl
    | none =>
      by_cases hp : p.1 = k
      · simp [hp]
      · simp [hp]

/-- The list of counts has the keys that were inserted, each with its count. -/
theorem mem_counts_ofInsertions {n : Nat} :
    (k, n) ∈ (ofInsertions insertions).counts ↔
      k ∈ insertions.map (·.1) ∧ n = (ofInsertions insertions).count k := by
  rw [(sorted_counts _).mem_iff_find?, find?_counts, ← isSome_entryAt?_ofInsertions_iff]
  unfold count
  cases (ofInsertions insertions).entryAt? k with
  | none => simp
  | some e => simp [eq_comm]

end Run

/-! ## Tallies -/

/-- What an index says of a sequence of insertions: how often each key was inserted, how many
insertions there were and of how many keys, the keys in the order of their bytes with their counts,
and the keys in the order of their first insertion with the record of that. This order is the one that
was kept beside the entries, and no key of it is passed over. -/
structure Tallies (index : FrequencyIndex) (insertions : List (String × Record)) : Prop where
  inStep : index.InStep
  count (k : String) : index.count k = (insertions.map (·.1)).count k
  total : index.total = insertions.length
  size : index.size = (insertions.map (·.1)).toFinset.card
  counts_sorted : (index.counts.map fun p => Text.toBytes p.1).Pairwise (· < ·)
  mem_counts (k : String) (n : Nat) :
    (k, n) ∈ index.counts ↔ k ∈ insertions.map (·.1) ∧ n = index.count k
  counts_pos : ∀ p ∈ index.counts, 1 ≤ p.2
  distinct : (index.representatives.map (·.1)).Nodup
  unskipped : index.representatives.map (·.1) = index.insertionOrder
  order : index.representatives.map (·.1) = (insertions.map (·.1)).eraseDups
  first (k : String) : index.representative? k = (insertions.find? (·.1 = k)).map (·.2)
  shown (k : String) (r : Record) :
    (k, r) ∈ index.representatives ↔ index.representative? k = some r

theorem tallies_ofInsertions (insertions : List (String × Record)) :
    (ofInsertions insertions).Tallies insertions :=
  have hstep := inStep_ofInsertions insertions
  { inStep := hstep
    count := count_ofInsertions insertions
    total := total_ofInsertions insertions
    size := size_ofInsertions insertions
    counts_sorted := List.pairwise_map.mpr ((sorted_counts _).imp Text.toBytes_lt_iff.mpr)
    mem_counts := fun k n => mem_counts_ofInsertions
    counts_pos := by
      rintro ⟨k, n⟩ hp
      obtain ⟨hk, rfl⟩ := mem_counts_ofInsertions.mp hp
      show 1 ≤ (ofInsertions insertions).count k
      rw [count_ofInsertions]
      exact List.count_pos_iff.mpr hk
    distinct := hstep.nodup_keys
    unskipped := hstep.keys_eq
    order := hstep.keys_eq.trans (insertionOrder_ofInsertions insertions)
    first := representative?_ofInsertions insertions
    shown := fun k r => hstep.mem_representatives_iff }

/-! ## Records -/

/-- Every index that insertions make tallies them, and so does the index of a collection of records,
made by inserting what normalizing leaves of them. The record that this one shows for a key has the
key, and has nothing left for normalizing to take off. -/
theorem tallies_and_representative_fixed :
    (∀ insertions, (ofInsertions insertions).Tallies insertions) ∧
      ∀ (options : NormalizeOptions) (records : List Record),
        (ofRecords options records).Tallies
            (records.map fun r => ((r.normalize options).key, r.normalize options)) ∧
          ∀ k r, (ofRecords options records).representative? k = some r →
            r.key = k ∧ r.normalize options = r := by
  refine ⟨tallies_ofInsertions, fun options records => ⟨?_, fun k r h => ?_⟩⟩
  · rw [ofRecords_eq_ofInsertions]
    exact tallies_ofInsertions _
  · obtain ⟨hkey, raw, -, rfl⟩ := exists_of_representative?_ofRecords h
    exact ⟨hkey, Record.normalize_normalize options raw⟩

/-- Two records that differ in what normalizing takes off, behind another one. -/
theorem representative_fixed_of_repeated_owner :
    let records := [Record.ofFields [("Name", .str "B")],
      Record.ofFields [("ID", .str "1"), ("Name", .str "A"), ("Comment", .str "first")],
      Record.ofFields [("ID", .str "2"), ("Name", .str "A"), ("Publish", .str "N")]]
    let options : NormalizeOptions := ⟨["LiveFrom"], true⟩
    let r := Record.ofFields [("Name", .str "A")]
    let index := ofRecords options records
    index.count "\x7b\"Name\":\"A\"\x7d" = 2 ∧
      index.representatives.map (·.1)
        = ["\x7b\"Name\":\"B\"\x7d", "\x7b\"Name\":\"A\"\x7d"] ∧
      index.representative? "\x7b\"Name\":\"A\"\x7d" = some r ∧
      r.key = "\x7b\"Name\":\"A\"\x7d" ∧ r.normalize options = r := by
  intro records options r index
  have hshown : index.representative? "\x7b\"Name\":\"A\"\x7d" = some r := by
    rw [representative?_ofRecords]
    cbv
  have hfixed := (tallies_and_representative_fixed.2 options records).2 _ _ hshown
  exact ⟨by decide +kernel, by decide +kernel, hshown, hfixed⟩

end ExportDiff.FrequencyIndex
