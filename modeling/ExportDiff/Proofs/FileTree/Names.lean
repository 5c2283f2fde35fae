/-
# ExportDiff.Proofs.FileTree.Names — what a key tells of the names behind it

The key of an entry joins the names that lead to it as they are shown, and its path joins them as they
are. A name is not empty and has no separator in it, neither as it is nor as it is shown, so what was
joined can be taken apart again: a path tells the names (`entryPath_inj`), and a key tells how they are
shown (`keyOf_eq_iff`). That is less, for different names may be shown alike; but names that are text
are not.
-/

import ExportDiff.Discovery
import ExportDiff.Proofs.Text.Utf8

namespace ExportDiff

open FileTree (Name Place)

/-! ## Names -/

namespace FileTree.Name

/-- Bytes that can be the name of an entry: some, without a separator or a zero byte, and with no meaning
of their own in a path. -/
theorem isName_iff {bytes : List UInt8} : isName bytes = true ↔
    bytes ≠ [] ∧ Path.slash ∉ bytes ∧ 0 ∉ bytes ∧ bytes ≠ [0x2E] ∧ bytes ≠ [0x2E, 0x2E] := by
  unfold isName
  simp only [Bool.and_eq_true, Bool.not_eq_true', List.contains_eq_mem, decide_eq_false_iff_not,
    List.isEmpty_eq_false_iff, bne_iff_ne, ne_eq, and_assoc]

theorem bytes_ne_nil (name : Name) : name.bytes ≠ [] := (isName_iff.mp name.valid).1

theorem slash_not_mem (name : Name) : Path.slash ∉ name.bytes := (isName_iff.mp name.valid).2.1

theorem zero_not_mem (name : Name) : 0 ∉ name.bytes := (isName_iff.mp name.valid).2.2.1

theorem bytes_ne_current (name : Name) : name.bytes ≠ [0x2E] := (isName_iff.mp name.valid).2.2.2.1

theorem bytes_ne_parent (name : Name) : name.bytes ≠ [0x2E, 0x2E] :=
  (isName_iff.mp name.valid).2.2.2.2

/-- A name as it is shown. -/
def shown (name : Name) : List Char := Text.ofBytes name.bytes

/-- A name that is the bytes of a text. -/
def IsText (name : Name) : Prop := ∃ s, Text.toBytes s = name.bytes

variable {m n : Name}

/-- Names that are text are not shown alike. -/
theorem eq_of_shown_eq (hm : m.IsText) (hn : n.IsText) (h : m.shown = n.shown) : m = n := by
  obtain ⟨s, hs⟩ := hm
  obtain ⟨t, ht⟩ := hn
  unfold shown at h
  rw [← hs, ← ht, Text.ofBytes_toBytes, Text.ofBytes_toBytes] at h
  refine Name.ext ?_
  rw [← hs, ← ht, String.toList_inj.mp h]

end FileTree.Name

/-! ## Joining -/

section Joining

variable {α : Type} [DecidableEq α] {x : α} {ls ks : List (List α)}

/-- Parts that are not empty and have no separator in them. -/
def Separable (x : α) (ls : List (List α)) : Prop := ∀ l ∈ ls, l ≠ [] ∧ x ∉ l

omit [DecidableEq α] in
theorem intercalate_ne_nil (hls : Separable x ls) (hne : ls ≠ []) : [x].intercalate ls ≠ [] := by
  obtain ⟨l, rest, rfl⟩ := List.exists_cons_of_ne_nil hne
  intro h
  have hl := (hls l List.mem_cons_self).1
  cases rest with
  | nil => exact hl (by simpa [List.intercalate] using h)
  | cons l' rest => simp [List.intercalate, hl] at h

/-- Parts can be told from what they are joined to. -/
theorem intercalate_inj (hls : Separable x ls) (hks : Separable x ks)
    (h : [x].intercalate ls = [x].intercalate ks) : ls = ks := by
  by_cases hlnil : ls = []
  · by_cases hknil : ks = []
    · rw [hlnil, hknil]
    · subst hlnil
      exact absurd h.symm (intercalate_ne_nil hks hknil)
  by_cases hknil : ks = []
  · subst hknil
    exact absurd h (intercalate_ne_nil hls hlnil)
  rw [← List.splitOn_intercalate x (fun l hl => (hls l hl).2) hlnil, h,
    List.splitOn_intercalate x (fun k hk => (hks k hk).2) hknil]

omit [DecidableEq α] in
/-- What parts are joined to is made of the parts and the separator. -/
theorem eq_or_exists_mem_of_mem_intercalate {y : α} (h : y ∈ [x].intercalate ls) :
    y = x ∨ ∃ l ∈ ls, y ∈ l := by
  induction ls with
  | nil => cases h
  | cons l ls ih =>
    cases ls with
    | nil =>
      rw [List.intercalate_singleton] at h
      exact Or.inr ⟨l, List.mem_cons_self, h⟩
    | cons l' rest =>
      rw [List.intercalate_cons_cons, List.append_assoc, List.mem_append, List.singleton_append,
        List.mem_cons] at h
      rcases h with h | h | h
      · exact Or.inr ⟨l, List.mem_cons_self, h⟩
      · exact Or.inl h
      · refine (ih h).imp_right fun ⟨part, hpart, hy⟩ => ?_
        exact ⟨part, List.mem_cons_of_mem l hpart, hy⟩

end Joining

/-! ## Keys and paths -/

/-- The key of the entry that names lead to. -/
def keyOf (names : Place) : String := Path.keyOfNames (names.map (·.bytes))

section Keys

variable {v w : Place} {root : Path}

theorem separable_shown (names : Place) : Separable '/' (names.map Name.shown) := by
  intro part hpart
  obtain ⟨name, -, rfl⟩ := List.mem_map.mp hpart
  exact ⟨Text.ofBytes_ne_nil name.bytes_ne_nil,
    fun h => name.slash_not_mem (Text.slash_mem_of_mem_ofBytes h)⟩

theorem separable_bytes (names : Place) : Separable Path.slash (names.map (·.bytes)) := by
  intro part hpart
  obtain ⟨name, -, rfl⟩ := List.mem_map.mp hpart
  exact ⟨name.bytes_ne_nil, name.slash_not_mem⟩

theorem toList_keyOf (names : Place) :
    (keyOf names).toList = ['/'].intercalate (names.map Name.shown) := by
  unfold keyOf Path.keyOfNames
  rw [String.toList_intercalate, List.map_map, List.map_map]
  congr 1
  refine List.map_congr_left fun name _ => ?_
  exact String.toList_ofList

/-- In a key, a character of a single byte is the separator, or a name has this byte. -/
theorem exists_mem_of_mem_keyOf {c : Char} {names : Place} (hc : Text.IsSingle c) (hne : c ≠ '/')
    (h : c ∈ (keyOf names).toList) : ∃ name ∈ names, UInt8.ofNat c.toNat ∈ name.bytes := by
  rw [toList_keyOf] at h
  rcases eq_or_exists_mem_of_mem_intercalate h with rfl | ⟨part, hpart, hmem⟩
  · exact absurd rfl hne
  · obtain ⟨name, hname, rfl⟩ := List.mem_map.mp hpart
    exact ⟨name, hname, Text.mem_of_mem_ofBytes hc hmem⟩

/-- Two entries have one key exactly where the names that lead to them are shown alike. -/
theorem keyOf_eq_iff : keyOf v = keyOf w ↔ v.map Name.shown = w.map Name.shown := by
  rw [← String.toList_inj, toList_keyOf, toList_keyOf]
  exact ⟨intercalate_inj (separable_shown v) (separable_shown w), fun h => by rw [h]⟩

/-- Entries that are led to by names that are text have keys of their own. -/
theorem eq_of_keyOf_eq (hv : ∀ name ∈ v, name.IsText) (hw : ∀ name ∈ w, name.IsText)
    (h : keyOf v = keyOf w) : v = w := by
  have hshown := keyOf_eq_iff.mp h
  clear h
  induction v generalizing w with
  | nil => exact (List.map_eq_nil_iff.mp hshown.symm).symm
  | cons m v ih =>
    cases w with
    | nil => cases hshown
    | cons n w =>
      obtain ⟨hm, hv⟩ := List.forall_mem_cons.mp hv
      obtain ⟨hn, hw⟩ := List.forall_mem_cons.mp hw
      obtain ⟨hname, hrest⟩ := List.cons.inj hshown
      rw [Name.eq_of_shown_eq hm hn hname, ih hv hw hrest]

theorem join_inj {name other : List UInt8} (h : root.join name = root.join other) :
    name = other := by
  unfold Path.join at h
  split at h
  · exact List.append_cancel_left (Path.mk.inj h)
  · exact List.cons_inj_right _ |>.mp (List.append_cancel_left (Path.mk.inj h))

theorem join_ne_self {name : List UInt8} (h : name ≠ []) : root.join name ≠ root := by
  intro heq
  have hlength := congrArg (·.bytes.length) heq
  have hpos := List.length_pos_iff.mpr h
  unfold Path.join at hlength
  split at hlength
  · simp only [List.length_append] at hlength
    omega
  · simp only [List.length_append, List.length_cons] at hlength
    omega

/-- Two entries have one path only if the same names lead to them. -/
theorem entryPath_inj (h : entryPath root v = entryPath root w) : v = w := by
  have hbytes : v.map (·.bytes) = w.map (·.bytes) := by
    unfold entryPath Path.joinAll at h
    split at h
    · next hv =>
      split at h
      · next hw => rw [hv, hw]
      · next hw => exact absurd h.symm (join_ne_self (intercalate_ne_nil (separable_bytes w) hw))
    · next hv =>
      split at h
      · next hw => exact absurd h (join_ne_self (intercalate_ne_nil (separable_bytes v) hv))
      · next hw => exact intercalate_inj (separable_bytes v) (separable_bytes w) (join_inj h)
  exact (List.map_inj_right fun _ _ => Name.ext).mp hbytes

end Keys

end ExportDiff
