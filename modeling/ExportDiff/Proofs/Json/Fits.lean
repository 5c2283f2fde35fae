/-
# ExportDiff.Proofs.Json.Fits — what a reader gives fits it

A reader that allows a number of open brackets gives values that fit it: they are nested no deeper, and
in every object the names stand in order, each once, whatever order and repetitions there were in the
text.
-/

import ExportDiff.Json.Reader.Value

namespace ExportDiff.Json

/-! ## Values that fit a reader -/

theorem itemsDepth_le_iff {xs : List Json} {levels : Nat} :
    itemsDepth xs ≤ levels ↔ ∀ x ∈ xs, depth x ≤ levels := by
  induction xs with
  | nil => simp [itemsDepth]
  | cons x xs ih => rw [itemsDepth, Nat.max_le, List.forall_mem_cons, ih]

theorem membersDepth_le_iff {ms : List (String × Json)} {levels : Nat} :
    membersDepth ms ≤ levels ↔ ∀ m ∈ ms, depth m.2 ≤ levels := by
  induction ms with
  | nil => simp [membersDepth]
  | cons m ms ih => rw [membersDepth, Nat.max_le, List.forall_mem_cons, ih]

/-- A value with its names in order, and with at most so many arrays and objects open at once. -/
structure Fits (levels : Nat) (x : Json) : Prop where
  canonical : Canonical x
  depth_le : depth x ≤ levels

namespace Fits

variable {levels : Nat} {x : Json} {items : List Json} {members : List (String × Json)}

theorem mono {more : Nat} (h : Fits levels x) (hle : levels ≤ more) : Fits more x :=
  ⟨h.canonical, Nat.le_trans h.depth_le hle⟩

/-- An array takes one level. -/
theorem arr_iff : Fits levels (.arr items) ↔
    ∃ inner, levels = inner + 1 ∧ ∀ y ∈ items, Fits inner y := by
  constructor
  · rintro ⟨hcanonical, hdepth⟩
    obtain ⟨inner, rfl⟩ := Nat.exists_eq_add_of_le' (Nat.le_trans (Nat.le_add_left 1 _) hdepth)
    refine ⟨inner, rfl, ?_⟩
    intro y hy
    exact ⟨canonicalItems_iff.mp hcanonical y hy,
      itemsDepth_le_iff.mp (Nat.le_of_succ_le_succ hdepth) y hy⟩
  · rintro ⟨inner, rfl, hitems⟩
    exact ⟨canonicalItems_iff.mpr fun y hy => (hitems y hy).canonical,
      Nat.succ_le_succ (itemsDepth_le_iff.mpr fun y hy => (hitems y hy).depth_le)⟩

/-- An object takes one level, and has its own names in order. -/
theorem obj_iff : Fits levels (.obj members) ↔
    Assoc.Sorted members ∧ ∃ inner, levels = inner + 1 ∧ ∀ m ∈ members, Fits inner m.2 := by
  constructor
  · rintro ⟨⟨hsorted, hcanonical⟩, hdepth⟩
    obtain ⟨inner, rfl⟩ := Nat.exists_eq_add_of_le' (Nat.le_trans (Nat.le_add_left 1 _) hdepth)
    refine ⟨hsorted, inner, rfl, ?_⟩
    intro m hm
    exact ⟨canonicalMembers_iff.mp hcanonical m hm,
      membersDepth_le_iff.mp (Nat.le_of_succ_le_succ hdepth) m hm⟩
  · rintro ⟨hsorted, inner, rfl, hmembers⟩
    exact ⟨⟨hsorted, canonicalMembers_iff.mpr fun m hm => (hmembers m hm).canonical⟩,
      Nat.succ_le_succ (membersDepth_le_iff.mpr fun m hm => (hmembers m hm).depth_le)⟩

end Fits

/-! ## What a reader gives fits it -/

section Given

variable {item : Reader Json} {cs rest : List Char} {x : Json} {P : Json → Prop}

/-- An array holds what was read before it was complete, and what was read from then on. -/
theorem arr_of_items {read : List Json} (h : items item read cs = .ok (x, rest))
    (hread : ∀ y ∈ read, P y) (hitem : ∀ {cs y rest}, item.run cs = .ok (y, rest) → P y) :
    ∃ ys, x = .arr ys ∧ ∀ y ∈ ys, P y := by
  fun_induction items item read cs with
  | case1 => simp at h
  | case2 => simp [stop] at h
  | case3 read cs y rest₀ hrun =>
    obtain ⟨rfl, -⟩ := Prod.mk.inj (Except.ok.inj h)
    refine ⟨_, rfl, ?_⟩
    intro z hz
    rcases List.mem_cons.mp (List.mem_reverse.mp hz) with rfl | hz
    · exact hitem hrun
    · exact hread z hz
  | case4 => simp [stop] at h
  | case5 => simp [stop] at h
  | case6 read cs y rest₀ hrun =>
    rename_i ih
    refine ih h ?_
    intro z hz
    rcases List.mem_cons.mp hz with rfl | hz
    · exact hitem hrun
    · exact hread z hz
  | case7 => simp [stop] at h

/-- An object holds its members in name order. -/
theorem obj_of_members {read : List (String × Json)} (h : members item read cs = .ok (x, rest))
    (hsorted : Assoc.Sorted read) (hread : ∀ m ∈ read, P m.2)
    (hitem : ∀ {cs y rest}, item.run cs = .ok (y, rest) → P y) :
    ∃ ms, x = .obj ms ∧ Assoc.Sorted ms ∧ ∀ m ∈ ms, P m.2 := by
  have hinsert : ∀ {read : List (String × Json)} {name : String} {y : Json},
      (∀ m ∈ read, P m.2) → P y → ∀ m ∈ Assoc.insert name y read, P m.2 := by
    intro read name y hread hy m hm
    rcases Assoc.mem_insert hm with rfl | hm
    · exact hy
    · exact hread m hm
  fun_induction members item read cs with
  | case1 => simp at h
  | case2 => simp at h
  | case3 => simp at h
  | case4 => simp [stop] at h
  | case5 read cs name rest₀ hname rest₁ hcolon y rest₂ hrun =>
    obtain ⟨rfl, -⟩ := Prod.mk.inj (Except.ok.inj h)
    exact ⟨_, rfl, hsorted.insert name y, hinsert hread (hitem hrun)⟩
  | case6 => simp [stop] at h
  | case7 read cs name rest₀ hname rest₁ hcolon y rest₂ hrun =>
    rename_i ih
    exact ih h (hsorted.insert name y) (hinsert hread (hitem hrun))
  | case8 => simp [stop] at h
  | case9 => simp [stop] at h
  | case10 => simp [stop] at h

theorem arr_of_array (h : array item cs = .ok (x, rest))
    (hitem : ∀ {cs y rest}, item.run cs = .ok (y, rest) → P y) :
    ∃ ys, x = .arr ys ∧ ∀ y ∈ ys, P y := by
  unfold array at h
  split at h
  · simp [stop] at h
  · split at h
    · obtain ⟨rfl, -⟩ := Prod.mk.inj (Except.ok.inj h)
      exact ⟨[], rfl, by simp⟩
    · exact arr_of_items h (by simp) hitem

theorem obj_of_object (h : object item cs = .ok (x, rest))
    (hitem : ∀ {cs y rest}, item.run cs = .ok (y, rest) → P y) :
    ∃ ms, x = .obj ms ∧ Assoc.Sorted ms ∧ ∀ m ∈ ms, P m.2 := by
  unfold object at h
  split at h
  · simp [stop] at h
  · split at h
    · obtain ⟨rfl, -⟩ := Prod.mk.inj (Except.ok.inj h)
      exact ⟨[], rfl, Assoc.sorted_nil, by simp⟩
    split at h
    · exact obj_of_members h Assoc.sorted_nil (by simp) hitem
    · simp [stop] at h

end Given

/-- What the reader of a number of levels reads an array's or object's parts with. -/
def inner : Nat → Option (Reader Json)
  | 0 => none
  | levels + 1 => some (value levels)

theorem run_value (levels : Nat) : (value levels).run = valueWith (inner levels) := by
  cases levels <;> rfl

theorem word_eq_ok {α : Type} {x y : α} {letters cs rest : List Char}
    (h : word x letters cs = .ok (y, rest)) : y = x := by
  induction letters generalizing cs with
  | nil => exact (Prod.mk.inj (Except.ok.inj h)).1.symm
  | cons letter letters ih =>
    cases cs with
    | nil => simp [word, stop] at h
    | cons c cs =>
      simp only [word] at h
      split at h
      · exact ih h
      · simp [stop] at h

/-- A value that is no array or object fits every reader. -/
theorem Fits.scalar {levels : Nat} {x : Json} (hcanonical : Canonical x) (hdepth : depth x = 0) :
    Fits levels x := ⟨hcanonical, hdepth ▸ Nat.zero_le levels⟩

theorem fits_of_startingWith {levels : Nat} {c : Char} {cs rest : List Char} {x : Json}
    (h : startingWith (inner levels) c cs = .ok (x, rest))
    (hinner : ∀ item, inner levels = some item → ∃ below, levels = below + 1 ∧
      ∀ {cs y rest}, item.run cs = .ok (y, rest) → Fits below y) : Fits levels x := by
  unfold startingWith at h
  split at h
  · rw [word_eq_ok h]
    exact .scalar trivial rfl
  split at h
  · rw [word_eq_ok h]
    exact .scalar trivial rfl
  split at h
  · rw [word_eq_ok h]
    exact .scalar trivial rfl
  split at h
  · obtain ⟨⟨n, _⟩, -, hx⟩ := ok_of_map h
    obtain ⟨rfl, -⟩ := Prod.mk.inj hx
    exact .scalar trivial rfl
  split at h
  · obtain ⟨⟨n, _⟩, -, hx⟩ := ok_of_map h
    obtain ⟨rfl, -⟩ := Prod.mk.inj hx
    exact .scalar trivial rfl
  split at h
  · obtain ⟨⟨s, _⟩, -, hx⟩ := ok_of_map h
    obtain ⟨rfl, -⟩ := Prod.mk.inj hx
    exact .scalar trivial rfl
  split at h
  · split at h
    · simp [stop] at h
    · next item hitem =>
      obtain ⟨below, rfl, hgives⟩ := hinner item hitem
      obtain ⟨ys, rfl, hys⟩ := arr_of_array h hgives
      exact Fits.arr_iff.mpr ⟨below, rfl, hys⟩
  split at h
  · split at h
    · simp [stop] at h
    · next item hitem =>
      obtain ⟨below, rfl, hgives⟩ := hinner item hitem
      obtain ⟨ms, rfl, hsorted, hms⟩ := obj_of_object h hgives
      exact Fits.obj_iff.mpr ⟨hsorted, below, rfl, hms⟩
  · simp [stop] at h

/-- What a reader gives fits it. -/
theorem fits_of_run {levels : Nat} {cs rest : List Char} {x : Json}
    (h : (value levels).run cs = .ok (x, rest)) : Fits levels x := by
  induction levels generalizing cs rest x with
  | zero =>
    rw [run_value] at h
    unfold valueWith at h
    split at h
    · simp [stop] at h
    · exact fits_of_startingWith h (by simp [inner])
  | succ levels ih =>
    rw [run_value] at h
    unfold valueWith at h
    split at h
    · simp [stop] at h
    · refine fits_of_startingWith h ?_
      intro item hitem
      obtain rfl := Option.some.inj hitem
      exact ⟨levels, rfl, ih⟩

end ExportDiff.Json
