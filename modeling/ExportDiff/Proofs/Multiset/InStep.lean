/-
# ExportDiff.Proofs.Multiset.InStep — the two tables of an index stay in step

The candidates of an index are found by looking up the keys of its order, and a key without an entry
would be passed over. It never is: the order has the key of each entry once and no other key, and each
entry counts something (`InStep`). That holds of the index that has counted nothing, one insertion keeps
it (`InStep.insert`), and so it holds after any number of them (`inStep_ofInsertions`), and of every
index of records.

So the candidates have the keys of the order, in this order, each with the record of its entry.
-/

import Mathlib.Data.List.Nodup
import ExportDiff.FrequencyIndex
import ExportDiff.Proofs.Assoc

namespace ExportDiff.FrequencyIndex

/-- The two tables are in step: the order has the key of each entry once and no other key. No entry
counts nothing. -/
structure InStep (index : FrequencyIndex) : Prop where
  nodup : index.insertionOrder.Nodup
  mem_order_iff (key : String) : key ∈ index.insertionOrder ↔ (index.entryAt? key).isSome = true
  counted (key : String) (e : Entry) : index.entryAt? key = some e → 0 < e.count

variable {index : FrequencyIndex} {key k : String} {r : Record}

/-! ## One insertion -/

theorem inStep_empty : empty.InStep where
  nodup := List.nodup_nil
  mem_order_iff key := iff_of_false List.not_mem_nil Bool.false_ne_true
  counted key e h := by cases h

/-- An insertion keeps the tables in step. -/
theorem InStep.insert (h : index.InStep) (key : String) (r : Record) :
    (index.insert key r).InStep where
  nodup := by
    rw [insertionOrder_insert]
    split
    · exact h.nodup
    · next hnew =>
      have hmem : key ∉ index.insertionOrder := mt (h.mem_order_iff key).mp hnew
      apply h.nodup.append (List.nodup_singleton key)
      rwa [List.disjoint_singleton]
  mem_order_iff k := by
    rw [insertionOrder_insert, entryAt?_insert]
    by_cases hk : k = key
    · -- the key has an entry now, and it was in the order or has come to its end
      subst hk
      rw [if_pos rfl]
      refine iff_of_true ?_ rfl
      split
      · next hknown => exact (h.mem_order_iff k).mpr hknown
      · exact List.mem_append_right _ (List.mem_singleton_self k)
    · rw [if_neg hk, ← h.mem_order_iff k]
      split
      · exact Iff.rfl
      · rw [List.mem_append, List.mem_singleton, or_iff_left hk]
  counted k e := by
    rw [entryAt?_insert]
    split
    · intro he
      cases hentry : index.entryAt? key with
      | none =>
        rw [hentry] at he
        obtain rfl := Option.some.inj he
        exact Nat.one_pos
      | some old =>
        rw [hentry] at he
        obtain rfl := Option.some.inj he
        exact Nat.succ_pos old.count
    · exact h.counted k e

/-! ## Any number of insertions -/

/-- Inserting records under keys, one after the other. -/
def insertAll (index : FrequencyIndex) (insertions : List (String × Record)) : FrequencyIndex :=
  insertions.foldl (fun index p => index.insert p.1 p.2) index

/-- The index made by insertions of a record under a key, one after the other. -/
def ofInsertions (insertions : List (String × Record)) : FrequencyIndex := empty.insertAll insertions

theorem insertAll_cons (p : String × Record) (rest : List (String × Record)) :
    index.insertAll (p :: rest) = (index.insert p.1 p.2).insertAll rest := rfl

theorem InStep.insertAll (h : index.InStep) (insertions : List (String × Record)) :
    (index.insertAll insertions).InStep := by
  induction insertions generalizing index with
  | nil => exact h
  | cons p rest ih =>
    rw [insertAll_cons]
    exact ih (h.insert p.1 p.2)

/-- Whatever is inserted, the tables of the index are in step. -/
theorem inStep_ofInsertions (insertions : List (String × Record)) :
    (ofInsertions insertions).InStep := inStep_empty.insertAll insertions

@[simp] theorem ofInsertions_nil : ofInsertions [] = empty := rfl

@[simp] theorem ofInsertions_append_singleton (insertions : List (String × Record))
    (p : String × Record) :
    ofInsertions (insertions ++ [p]) = (ofInsertions insertions).insert p.1 p.2 := by
  unfold ofInsertions insertAll
  rw [List.foldl_append]
  rfl

/-- Counting records inserts what normalizing leaves of them, under its key. -/
theorem ofRecords_eq_ofInsertions (options : NormalizeOptions) (records : List Record) :
    ofRecords options records
      = ofInsertions (records.map fun r => ((r.normalize options).key, r.normalize options)) := by
  unfold ofRecords ofInsertions insertAll
  rw [List.foldl_map]
  rfl

theorem inStep_ofRecords (options : NormalizeOptions) (records : List Record) :
    (ofRecords options records).InStep := by
  rw [ofRecords_eq_ofInsertions]
  exact inStep_ofInsertions _

/-! ## The candidates -/

/-- The keys of the candidates, in their order. -/
def keys (index : FrequencyIndex) : List String := index.representatives.map (·.1)

/-- A candidate is a key of the order that has an entry, with the record of the entry. -/
theorem mem_representatives_iff :
    (k, r) ∈ index.representatives ↔
      k ∈ index.insertionOrder ∧ index.representative? k = some r := by
  unfold representatives representative?
  simp only [List.mem_filterMap, Option.map_eq_some_iff, Prod.mk.injEq]
  constructor
  · rintro ⟨key, hkey, e, he, rfl, rfl⟩
    exact ⟨hkey, e, he, rfl⟩
  · rintro ⟨hk, e, he, rfl⟩
    exact ⟨k, hk, e, he, rfl, rfl⟩

/-- The record of a candidate is the one that is shown for its key. -/
theorem representative?_of_mem (h : (k, r) ∈ index.representatives) :
    index.representative? k = some r := (mem_representatives_iff.mp h).2

/-- In step, every record that is shown for a key is a candidate. -/
theorem InStep.mem_representatives_iff (h : index.InStep) :
    (k, r) ∈ index.representatives ↔ index.representative? k = some r := by
  rw [FrequencyIndex.mem_representatives_iff, and_iff_right_iff_imp, h.mem_order_iff]
  intro hr
  obtain ⟨e, he, -⟩ := Option.map_eq_some_iff.mp hr
  exact Option.isSome_of_mem he

/-- In step, no key of the order is passed over. -/
theorem InStep.keys_eq (h : index.InStep) : index.keys = index.insertionOrder := by
  have hfound : ∀ key ∈ index.insertionOrder,
      ((index.entryAt? key).map fun e => (key, e.representative)).map (·.1) = some (id key) := by
    intro key hkey
    obtain ⟨e, he⟩ := Option.isSome_iff_exists.mp ((h.mem_order_iff key).mp hkey)
    rw [he]
    rfl
  unfold keys representatives
  rw [List.map_filterMap, List.filterMap_eq_map_iff_forall_eq_some.mpr hfound, List.map_id]

theorem InStep.nodup_keys (h : index.InStep) : index.keys.Nodup := by
  rw [h.keys_eq]
  exact h.nodup

theorem InStep.mem_keys_iff (h : index.InStep) :
    k ∈ index.keys ↔ (index.entryAt? k).isSome = true := by
  rw [h.keys_eq]
  exact h.mem_order_iff k

/-- In step, the order has the keys of the entries. -/
theorem InStep.perm_keys (h : index.InStep) : (index.entries.map (·.1)).Perm index.keys := by
  rw [List.perm_ext_iff_of_nodup index.sorted.nodup_keys h.nodup_keys]
  intro key
  rw [h.mem_keys_iff]
  exact Assoc.isSome_find?_iff.symm

/-- In step, the candidates have the keys that were counted. -/
theorem InStep.mem_keys_iff_count_pos (h : index.InStep) : k ∈ index.keys ↔ 0 < index.count k := by
  rw [h.mem_keys_iff]
  unfold count
  cases hentry : index.entryAt? k with
  | none => exact iff_of_false Bool.false_ne_true (Nat.lt_irrefl 0)
  | some e => exact iff_of_true rfl (h.counted k e hentry)

/-- In step, there are as many candidates as keys were counted. -/
theorem InStep.length_representatives (h : index.InStep) :
    index.representatives.length = index.size := by
  have hlength := h.perm_keys.length_eq
  unfold keys at hlength
  rw [List.length_map, List.length_map] at hlength
  exact hlength.symm

theorem InStep.representatives_eq_nil_iff (h : index.InStep) :
    index.representatives = [] ↔ index.size = 0 := by
  rw [← List.length_eq_zero_iff, h.length_representatives]

end ExportDiff.FrequencyIndex
