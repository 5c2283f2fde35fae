/-
# ExportDiff.Proofs.Multiset.Coarsening — ignoring more never reports more

Options that ignore more fields drop every field that the others drop, and what they keep they judge
by content alone. So records with one key under the finer options have one key under the coarser ones:
the coarser key is a function of the finer one. Keys that are merged can only cancel out more, which
is a fact about multisets: what is left over after mapping was left over before.
-/

import Mathlib.Data.List.Permutation
import Mathlib.Data.Multiset.MapFold
import ExportDiff.Proofs.Multiset.Keys

namespace ExportDiff

/-! ## Dropping more -/

/-- Options that ignore every field that the others ignore, and strip identifiers where these do. -/
structure NormalizeOptions.Coarser (coarser options : NormalizeOptions) : Prop where
  ignored : options.ignored ⊆ coarser.ignored
  stripId : options.stripId = true → coarser.stripId = true

section Drops

variable {options coarser : NormalizeOptions} {name : String} {x y : Json}

/-- Whether a field is dropped depends on the content of its value. -/
theorem Json.Alike.drops_iff (h : Json.Alike x y) :
    options.Drops name x ↔ options.Drops name y := by
  have htext : ∀ text, x = .str text ↔ y = .str text := by
    intro text
    constructor
    · rintro rfl
      cases y with
      | str s => exact congrArg Json.str (Eq.symm h)
      | _ => exact h.elim
    · rintro rfl
      cases x with
      | str s => exact congrArg Json.str h
      | _ => exact h.elim
  simp only [NormalizeOptions.Drops, htext]

/-- Whatever finer options drop is dropped by coarser ones. -/
theorem NormalizeOptions.Coarser.drops (h : coarser.Coarser options) (hx : options.Drops name x) :
    coarser.Drops name x := by
  rcases hx with hx | hx | hx | ⟨hs, hname⟩
  · exact Or.inl hx
  · exact Or.inr (Or.inl (h.ignored hx))
  · exact Or.inr (Or.inr (Or.inl hx))
  · exact Or.inr (Or.inr (Or.inr ⟨h.stripId hs, hname⟩))

/-- What coarser options leave of a field, they leave of what the finer ones have left. -/
theorem NormalizeOptions.Coarser.effective? (h : coarser.Coarser options) (r : Record)
    (name : String) :
    coarser.effective? r name
      = (options.effective? r name).filter fun x => !decide (coarser.Drops name x) := by
  unfold NormalizeOptions.effective?
  rw [Option.filter_filter]
  congr 1
  funext x
  by_cases hfine : options.Drops name x
  · simp [hfine, h.drops hfine]
  · simp [hfine]

end Drops

variable {options coarser : NormalizeOptions}

/-- Records with one key under finer options have one key under coarser ones. -/
theorem NormalizeOptions.Coarser.factorsThrough_key (h : coarser.Coarser options) :
    (fun r => (Record.normalize coarser r).key).FactorsThrough
      (fun r => (Record.normalize options r).key) := by
  intro r s hkey
  have hfine := Record.key_eq_iff_alike.mp hkey
  apply Record.key_eq_iff_alike.mpr
  intro name
  have hname := hfine name
  rw [Record.get?_normalize, Record.get?_normalize] at hname ⊢
  rw [h.effective?, h.effective?]
  apply rel_filter_of_iff hname
  intro x y hxy
  simp only [hxy.drops_iff]

/-! ## Merging keys -/

/-- What is left over after mapping was left over before. -/
theorem card_map_sub_map_le {α β : Type} [DecidableEq α] [DecidableEq β] (g : α → β)
    (s t : Multiset α) : (s.map g - t.map g).card ≤ (s - t).card := by
  -- what is left over and what was taken away cover the whole, and so do their images
  have hcover : s.map g ≤ (s - t).map g + t.map g := by
    rw [← Multiset.map_add]
    exact Multiset.map_le_map Multiset.le_sub_add
  calc (s.map g - t.map g).card
      ≤ ((s - t).map g).card := Multiset.card_le_card (Multiset.sub_le_iff_le_add.mpr hcover)
    _ = (s - t).card := Multiset.card_map g (s - t)

/-- The coarser keys of a collection are its finer keys, some of them merged. -/
theorem NormalizeOptions.Coarser.exists_keys_eq_map (h : coarser.Coarser options) :
    ∃ g : String → String, ∀ records, coarser.keys records = (options.keys records).map g := by
  obtain ⟨g, hg⟩ := (Function.factorsThrough_iff _).mp h.factorsThrough_key
  refine ⟨g, ?_⟩
  intro records
  unfold NormalizeOptions.keys
  rw [Multiset.map_map, hg]

/-! ## Reporting less -/

theorem NormalizeOptions.Coarser.length_missing_le (h : coarser.Coarser options)
    (base head : List Record) :
    (coarser.difference base head).missing.length
      ≤ (options.difference base head).missing.length := by
  obtain ⟨g, hg⟩ := h.exists_keys_eq_map
  rw [← Multiset.coe_card, ← Multiset.coe_card, NormalizeOptions.coe_missing,
    NormalizeOptions.coe_missing, hg, hg]
  exact card_map_sub_map_le g _ _

/-- What is unexpected is what is missing the other way round, so there is no more of it either. -/
theorem NormalizeOptions.Coarser.length_unexpected_le (h : coarser.Coarser options)
    (base head : List Record) :
    (coarser.difference base head).unexpected.length
      ≤ (options.difference base head).unexpected.length :=
  h.length_missing_le head base

/-- Coarser options never report more: at most as many missing records, at most as many unexpected
ones, and nothing where the finer ones report nothing. -/
theorem NormalizeOptions.Coarser.difference_le (h : coarser.Coarser options)
    (base head : List Record) :
    (coarser.difference base head).missing.length
        ≤ (options.difference base head).missing.length ∧
      (coarser.difference base head).unexpected.length
        ≤ (options.difference base head).unexpected.length ∧
      ((options.difference base head).isIdentical = true →
        (coarser.difference base head).isIdentical = true) := by
  have hmissing := h.length_missing_le base head
  have hunexpected := h.length_unexpected_le base head
  refine ⟨hmissing, hunexpected, ?_⟩
  intro hfine
  rw [MultisetDiff.isIdentical_iff, ← List.length_eq_zero_iff, ← List.length_eq_zero_iff]
    at hfine ⊢
  omega

/-- An owner that changes counts as a difference until it is ignored. -/
theorem difference_le_of_ignoring_owner :
    let base := [Record.ofFields [("ID", .str "a"), ("Owner", .str "x")]]
    let head := [Record.ofFields [("ID", .str "b"), ("Owner", .str "y")]]
    let options : NormalizeOptions := ⟨["LiveFrom"], false⟩
    let coarser : NormalizeOptions := ⟨["Owner", "LiveFrom"], true⟩
    coarser.Coarser options ∧
      (options.difference base head).missing.length = 1 ∧
      (coarser.difference base head).isIdentical = true ∧
      (coarser.difference base head).missing.length
        ≤ (options.difference base head).missing.length ∧
      (coarser.difference base head).unexpected.length
        ≤ (options.difference base head).unexpected.length ∧
      ((options.difference base head).isIdentical = true →
        (coarser.difference base head).isIdentical = true) := by
  intro base head options coarser
  have h : coarser.Coarser options := ⟨by decide, by decide⟩
  exact ⟨h, by cbv, by cbv, h.difference_le base head⟩

end ExportDiff
