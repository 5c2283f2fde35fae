/-
# ExportDiff.Proofs.Multiset.Representatives — the record that an index shows for a key

An index keeps, for every key, the first record that was counted under it. For an index of records this
is the first one of those that normalize to a record with the key, and the candidates for a closest
match are the keys with these records.
-/

import ExportDiff.Proofs.Multiset.InStep

namespace ExportDiff.FrequencyIndex

variable {k : String} {r : Record}

/-! ## One step -/

/-- A record is kept for its key if the key has none yet. -/
theorem representative?_insert (index : FrequencyIndex) (key k : String) (r : Record) :
    (index.insert key r).representative? k
      = (index.representative? k).or (if key = k then some r else none) := by
  unfold representative?
  rw [entryAt?_insert]
  by_cases hk : k = key
  · subst hk
    rw [if_pos rfl, if_pos rfl]
    cases index.entryAt? k with
    | none => rfl
    | some e => rfl
  · rw [if_neg hk, if_neg (Ne.symm hk), Option.or_none]

/-! ## A whole list -/

theorem representative?_foldl_add (options : NormalizeOptions) (records : List Record)
    (index : FrequencyIndex) (k : String) :
    (records.foldl (fun index r => index.add options r) index).representative? k
      = (index.representative? k).or
          ((records.map (Record.normalize options)).find? (·.key = k)) := by
  induction records generalizing index with
  | nil => simp
  | cons r rest ih =>
    rw [List.foldl_cons, ih, add, representative?_insert, Option.or_assoc, List.map_cons,
      List.find?_cons]
    by_cases hk : (r.normalize options).key = k
    · simp [hk]
    · simp [hk]

/-- The record that an index shows for a key is the first normalized record with the key. -/
theorem representative?_ofRecords (options : NormalizeOptions) (records : List Record)
    (k : String) : (ofRecords options records).representative? k
      = (records.map (Record.normalize options)).find? (·.key = k) := by
  unfold ofRecords
  rw [representative?_foldl_add]
  rfl

/-- The record that an index shows for a key is what normalizing leaves of one of its records. -/
theorem exists_of_representative?_ofRecords {options : NormalizeOptions} {records : List Record}
    (h : (ofRecords options records).representative? k = some r) :
    r.key = k ∧ ∃ raw ∈ records, raw.normalize options = r := by
  rw [representative?_ofRecords] at h
  refine ⟨by simpa using List.find?_some h, ?_⟩
  exact List.mem_map.mp (List.mem_of_find?_eq_some h)

/-! ## The candidates -/

theorem mem_representatives_ofRecords_iff {options : NormalizeOptions} {records : List Record} :
    (k, r) ∈ (ofRecords options records).representatives ↔
      (ofRecords options records).representative? k = some r :=
  (inStep_ofRecords options records).mem_representatives_iff

end ExportDiff.FrequencyIndex
