/-
# ExportDiff.Proofs.Record.Successive — normalizing under one choice after another

Whether a field is left out depends on its name and value alone, never on the other fields of its
record. So what a second normalizing leaves out is what it would have left out of the record as it was
read, and two of them leave out what either does: they are one normalizing under the union of both
choices. It follows that normalizing again changes nothing, that the order of two normalizings does not
matter, and that an index of records that were normalized before is the index of the records as they
were read, under the union.
-/

import ExportDiff.FrequencyIndex
import ExportDiff.Proofs.Record.Content

namespace ExportDiff

/-! ## The union of two choices -/

namespace NormalizeOptions

variable {o p : NormalizeOptions} {name : String} {x : Json}

/-- The choice that ignores what either of two choices ignores, and strips the identifier where
either does. -/
def union (o p : NormalizeOptions) : NormalizeOptions :=
  ⟨o.ignored ++ p.ignored, o.stripId || p.stripId⟩

theorem mem_ignored_union : name ∈ (o.union p).ignored ↔ name ∈ o.ignored ∨ name ∈ p.ignored :=
  List.mem_append

/-- The union leaves a field out where either choice does: only the caller's list and the identifier
rule are different for the two, and the fixed rules are the same. -/
theorem drops_union : (o.union p).Drops name x ↔ o.Drops name x ∨ p.Drops name x := by
  have hstrip : (o.union p).stripId = true ↔ o.stripId = true ∨ p.stripId = true := Bool.or_eq_true_iff
  unfold Drops
  rw [mem_ignored_union, hstrip]
  grind

/-- A field counts under the union where it counts under both choices. -/
theorem effective?_union (r : Record) (name : String) :
    (o.union p).effective? r name
      = (o.effective? r name).filter fun x => !decide (p.Drops name x) := by
  unfold effective?
  rw [Option.filter_filter]
  congr 1
  funext x
  rw [← Bool.not_or, ← Bool.decide_or, decide_eq_decide.mpr drops_union]

end NormalizeOptions

/-! ## Records -/

namespace Record

variable (o p : NormalizeOptions) (r : Record)

theorem normalize_union : (r.normalize o).normalize p = r.normalize (o.union p) := by
  apply ext_get?
  intro name
  rw [get?_normalize, get?_normalize, NormalizeOptions.effective?_union,
    NormalizeOptions.effective?, get?_normalize]

/-- Two choices that leave out the same fields have the same effect. -/
theorem normalize_congr {o p : NormalizeOptions} (h : ∀ name x, o.Drops name x ↔ p.Drops name x) :
    r.normalize o = r.normalize p := by
  apply ext_get?
  intro name
  rw [get?_normalize, get?_normalize]
  unfold NormalizeOptions.effective?
  simp only [h]

theorem normalize_comm : (r.normalize o).normalize p = (r.normalize p).normalize o := by
  rw [normalize_union, normalize_union]
  apply normalize_congr
  intro name x
  rw [NormalizeOptions.drops_union, NormalizeOptions.drops_union, or_comm]

end Record

/-! ## Indexes -/

namespace FrequencyIndex

variable (o p : NormalizeOptions)

theorem add_normalize (index : FrequencyIndex) (r : Record) :
    index.add p (r.normalize o) = index.add (o.union p) r := by
  unfold add
  rw [Record.normalize_union]

/-- An index of normalized records, from any index on. -/
theorem foldl_add_normalize (records : List Record) (index : FrequencyIndex) :
    (records.map (Record.normalize o)).foldl (fun index r => index.add p r) index
      = records.foldl (fun index r => index.add (o.union p) r) index := by
  induction records generalizing index with
  | nil => rfl
  | cons r records ih =>
    rw [List.map_cons, List.foldl_cons, List.foldl_cons, add_normalize]
    exact ih _

end FrequencyIndex

/-- Normalizing under one choice and then under another is normalizing once under their union. So a
second time changes nothing, either may come first, and the index of normalized records is, with its
counts, its records and its order, the index of the records themselves under the union. -/
theorem NormalizeOptions.union_normalizes_at_once (o p : NormalizeOptions) :
    (∀ r : Record, (r.normalize o).normalize p = r.normalize (o.union p)) ∧
      (∀ r : Record, (r.normalize o).normalize o = r.normalize o) ∧
      (∀ r : Record, (r.normalize o).normalize p = (r.normalize p).normalize o) ∧
      ∀ records : List Record,
        FrequencyIndex.ofRecords (o.union p) records
          = FrequencyIndex.ofRecords p (records.map (Record.normalize o)) := by
  refine ⟨Record.normalize_union o p, Record.normalize_normalize o, Record.normalize_comm o p, ?_⟩
  intro records
  exact (FrequencyIndex.foldl_add_normalize o p records .empty).symm

end ExportDiff
