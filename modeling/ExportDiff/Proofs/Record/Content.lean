/-
# ExportDiff.Proofs.Record.Content — a key stands for the content that counts

Two records have the same key exactly where they hold alike values under the same names. After
normalizing, what counts is the effective value of each field: its value, unless the field is left
out by one of the rules, in which case it is as good as absent. So two records are counted under one
key exactly where all their effective values are alike (`key_normalize_eq_iff`).

The rules are stated here for a field and its value on their own; that normalizing applies them is
`get?_normalize`.
-/

import ExportDiff.Proofs.Json.UniqueReading
import ExportDiff.Record.Key
import ExportDiff.Record.Normalize

namespace ExportDiff

/-! ## Keys -/

/-- The same names with alike values. -/
def Record.Alike (r s : Record) : Prop :=
  ∀ name, Option.Rel Json.Alike (r.get? name) (s.get? name)

/-- A key determines the names and values of its record, and nothing else about it. -/
theorem Record.key_eq_iff_alike {r s : Record} : r.key = s.key ↔ r.Alike s := by
  have hchars : r.key = s.key ↔ r.keyChars = s.keyChars := by
    rw [← String.toList_inj, toList_key, toList_key]
  rw [hchars]
  unfold keyChars
  rw [Json.write_eq_iff_alike]
  exact Json.alikeMembers_iff_find? r.sorted s.sorted

/-! ## The fields that count -/

/-- Whether a field with this value is as good as absent: it is always ignored, or ignored by the
caller, or has a text that means the same as no field, or is the identifier and this is stripped. -/
def NormalizeOptions.Drops (options : NormalizeOptions) (name : String) (x : Json) : Prop :=
  name ∈ alwaysIgnored ∨ name ∈ options.ignored
    ∨ (∃ text, x = .str text ∧ (name, text) ∈ neutralDefaults)
    ∨ options.stripId = true ∧ name = idField

theorem isNeutral_iff {name : String} {x : Json} :
    isNeutral name x = true ↔ ∃ text, x = .str text ∧ (name, text) ∈ neutralDefaults := by
  cases x with
  | str text => simp [isNeutral, Json.text?]
  | _ => simp [isNeutral, Json.text?]

namespace NormalizeOptions

variable {options : NormalizeOptions} {name : String} {x : Json}

theorem drops_iff : options.Drops name x ↔
    options.keeps name x = false ∨ options.stripId = true ∧ name = idField := by
  simp only [Drops, keeps, isAlwaysIgnored, ← isNeutral_iff, Bool.and_eq_false_iff,
    Bool.not_eq_false', List.contains_iff_mem, or_assoc]

instance : Decidable (options.Drops name x) := decidable_of_iff' _ drops_iff

/-- The value with which a field takes part in a comparison, if it does. -/
def effective? (options : NormalizeOptions) (r : Record) (name : String) : Option Json :=
  (r.get? name).filter fun x => !decide (options.Drops name x)

end NormalizeOptions

/-! ## Normalizing applies the rules -/

theorem Record.get?_filter (r : Record) (keep : String → Json → Bool) (name : String) :
    (r.filter keep).get? name = (r.get? name).filter (keep name) :=
  r.sorted.find?_filter keep name

/-- What normalizing leaves under a name is the effective value of the field. -/
theorem Record.get?_normalize (options : NormalizeOptions) (r : Record) (name : String) :
    (r.normalize options).get? name = options.effective? r name := by
  unfold normalize NormalizeOptions.effective?
  simp only [NormalizeOptions.drops_iff]
  -- the identifier is taken off after the filter, the other fields by the filter
  by_cases hstrip : options.stripId = true ∧ name = idField
  · rw [if_pos hstrip.1, get?_erase, if_pos hstrip.2]
    exact (Option.filter_eq_none_iff.mpr (by simp [hstrip])).symm
  · have hkept : (if options.stripId = true then (r.filter options.keeps).erase idField
        else r.filter options.keeps).get? name = (r.filter options.keeps).get? name := by
      split
      · next hs => rw [get?_erase, if_neg fun hname => hstrip ⟨hs, hname⟩]
      · rfl
    rw [hkept, get?_filter]
    simp [hstrip]

/-- Nothing is left for a second normalizing to take off. -/
theorem Record.normalize_normalize (options : NormalizeOptions) (r : Record) :
    (r.normalize options).normalize options = r.normalize options := by
  apply Record.ext_get?
  intro name
  rw [get?_normalize, NormalizeOptions.effective?, get?_normalize, NormalizeOptions.effective?,
    Option.filter_filter]
  simp only [Bool.and_self]

/-- Two records are counted under one key exactly where every field has alike effective values. -/
theorem Record.key_normalize_eq_iff (options : NormalizeOptions) (r s : Record) :
    (r.normalize options).key = (s.normalize options).key ↔
      ∀ name, Option.Rel Json.Alike (options.effective? r name) (options.effective? s name) := by
  rw [key_eq_iff_alike]
  unfold Alike
  simp only [get?_normalize]

end ExportDiff
