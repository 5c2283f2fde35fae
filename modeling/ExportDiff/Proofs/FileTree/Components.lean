/-
# ExportDiff.Proofs.FileTree.Components — the names in the path of an entry

The path of an entry has the names that lead to it behind the path of the root. Taken apart, it has the
components of the root in front and these names behind them, however the root is written: with
separators at its end, or with components that mean nothing (`components_entryPath`). So what is left
without the root is the relative path of the entry. Its components are the names, its file name is the
last of them, and its key is the key of the entry.
-/

import ExportDiff.Proofs.FileTree.Names

namespace ExportDiff

open FileTree (Name Place)

namespace Path

/-! ## The components between separators -/

theorem splitAtSlash_eq_splitOn (bytes : List UInt8) :
    splitAtSlash bytes = bytes.splitOn slash := by
  induction bytes with
  | nil => rfl
  | cons byte bytes ih =>
    obtain ⟨part, parts, hparts⟩ :=
      List.exists_cons_of_ne_nil (List.splitOn_ne_nil slash bytes)
    rw [splitAtSlash, ih, List.splitOn_cons_eq_if_modifyHead, hparts]
    by_cases hbyte : byte = slash
    · simp [hbyte]
    · simp [hbyte]

/-- The components that the parts of a path stand for. The first part has a meaning of its own. -/
def componentsOf (absolute : Bool) : List (List UInt8) → List Component
  | [] => []
  | first :: parts =>
    (if absolute then [.root] else if first = [0x2E] then [.current] else (component? first).toList)
      ++ parts.filterMap component?

theorem components_eq (p : Path) :
    p.components = componentsOf p.isAbsolute (p.bytes.splitOn slash) := by
  rw [components, splitAtSlash_eq_splitOn]
  rfl

theorem componentsOf_append {parts : List (List UInt8)} (hne : parts ≠ []) (absolute : Bool)
    (more : List (List UInt8)) :
    componentsOf absolute (parts ++ more)
      = componentsOf absolute parts ++ more.filterMap component? := by
  obtain ⟨first, rest, rfl⟩ := List.exists_cons_of_ne_nil hne
  rw [List.cons_append, componentsOf, componentsOf, List.filterMap_append, List.append_assoc]

/-- A separator at the end of a path adds no component. -/
theorem componentsOf_concat_nil {parts : List (List UInt8)} (hne : parts ≠ []) (absolute : Bool) :
    componentsOf absolute (parts ++ [[]]) = componentsOf absolute parts := by
  rw [componentsOf_append hne]
  exact List.append_nil _

theorem isAbsolute_join {p : Path} (hne : p.bytes ≠ []) (bytes : List UInt8) :
    (p.join bytes).isAbsolute = p.isAbsolute := by
  obtain ⟨first, rest, hfirst⟩ := List.exists_cons_of_ne_nil hne
  unfold isAbsolute join
  split
  · rw [hfirst]
    rfl
  · rw [hfirst]
    rfl

/-- What is joined to a path stands behind a separator, which the path may have at its end. -/
theorem exists_front_join {p : Path} (hne : p.bytes ≠ []) (bytes : List UInt8) :
    ∃ front, (p.bytes = front ∨ p.bytes = front ++ [slash]) ∧
      (p.join bytes).bytes = front ++ slash :: bytes := by
  unfold join
  by_cases hend : p.bytes.getLast? = some slash
  · obtain ⟨front, hfront⟩ := List.getLast?_eq_some_iff.mp hend
    refine ⟨front, Or.inr hfront, ?_⟩
    rw [if_pos (Or.inl hend), hfront, List.append_assoc]
    rfl
  · refine ⟨p.bytes, Or.inl rfl, ?_⟩
    rw [if_neg (not_or.mpr ⟨hend, hne⟩)]

/-- Joining puts the parts of what is joined behind the components of a path. -/
theorem components_join {p : Path} (hne : p.bytes ≠ []) (bytes : List UInt8) :
    (p.join bytes).components
      = p.components ++ (bytes.splitOn slash).filterMap component? := by
  obtain ⟨front, hfront, hjoined⟩ := exists_front_join hne bytes
  have hparts := List.splitOn_ne_nil slash front
  rw [components_eq, components_eq, isAbsolute_join hne, hjoined, List.splitOn_append_cons_self,
    componentsOf_append hparts]
  rcases hfront with hfront | hfront
  · rw [hfront]
  · -- the separator at the end of the path is the one between the two
    rw [hfront, List.splitOn_append_cons_self, List.splitOn_nil, componentsOf_concat_nil hparts]

end Path

/-! ## Names as components -/

section Names

variable {names : Place} {root : Path}

/-- The path of an entry from the root of a walk, from the names that lead to it. -/
def relativePath (names : Place) : Path := ⟨[Path.slash].intercalate (names.map (·.bytes))⟩

/-- A name is a component of its own. -/
theorem component?_name (name : Name) : Path.component? name.bytes = some (.name name.bytes) := by
  unfold Path.component?
  rw [if_neg (not_or.mpr ⟨name.bytes_ne_nil, name.bytes_ne_current⟩), if_neg name.bytes_ne_parent]

theorem filterMap_component?_names (names : Place) :
    (names.map (·.bytes)).filterMap Path.component? = names.map fun name => .name name.bytes := by
  rw [List.filterMap_map]
  refine List.filterMap_eq_map_iff_forall_eq_some.mpr fun name _ => ?_
  exact component?_name name

theorem splitOn_relativePath (hne : names ≠ []) :
    (relativePath names).bytes.splitOn Path.slash = names.map (·.bytes) := by
  apply List.splitOn_intercalate
  · intro part hpart
    exact (separable_bytes names part hpart).2
  · exact mt List.map_eq_nil_iff.mp hne

/-- The path of an entry from the root of a walk does not start at the top of the tree. -/
theorem isAbsolute_relativePath (names : Place) : (relativePath names).isAbsolute = false := by
  cases names with
  | nil => rfl
  | cons name rest =>
    obtain ⟨byte, bytes, hbytes⟩ := List.exists_cons_of_ne_nil name.bytes_ne_nil
    have hslash : byte ≠ Path.slash := by
      rintro rfl
      exact name.slash_not_mem (hbytes ▸ List.mem_cons_self)
    have hhead : (relativePath (name :: rest)).bytes.head? = some byte := by
      unfold relativePath
      rw [List.map_cons, hbytes]
      cases rest with
      | nil => simp [List.intercalate]
      | cons next rest => simp [List.intercalate]
    unfold Path.isAbsolute
    rw [hhead]
    simpa using hslash

theorem components_relativePath (names : Place) :
    (relativePath names).components = names.map fun name => .name name.bytes := by
  rw [Path.components_eq, isAbsolute_relativePath]
  cases names with
  | nil => rfl
  | cons name rest =>
    rw [splitOn_relativePath (List.cons_ne_nil name rest), List.map_cons, Path.componentsOf,
      if_neg Bool.false_ne_true, if_neg name.bytes_ne_current, component?_name, filterMap_component?_names]
    rfl

theorem entryPath_eq_join (root : Path) (hne : names ≠ []) :
    entryPath root names = root.join (relativePath names).bytes := by
  unfold entryPath Path.joinAll
  rw [if_neg (mt List.map_eq_nil_iff.mp hne)]
  rfl

/-- The path of an entry has the components of its relative path behind those of the root. -/
theorem components_entryPath (root : Path) (names : Place) :
    (entryPath root names).components = root.components ++ (relativePath names).components := by
  by_cases hnames : names = []
  · subst hnames
    exact (List.append_nil _).symm
  have hjoin := entryPath_eq_join root hnames
  by_cases hempty : root.bytes = []
  · have hroot : root.components = [] := by
      obtain rfl : root = ⟨[]⟩ := by
        cases root
        rw [← hempty]
      rfl
    have hsame : entryPath root names = relativePath names := by
      rw [hjoin]
      unfold Path.join
      rw [if_pos (Or.inr hempty), hempty]
      rfl
    rw [hroot, hsame]
    rfl
  · rw [hjoin, Path.components_join hempty, splitOn_relativePath hnames,
      filterMap_component?_names, components_relativePath]

/-- The names in the relative path of an entry are those that lead to it. -/
theorem names_relativePath (names : Place) : (relativePath names).names = names.map (·.bytes) := by
  unfold Path.names
  rw [components_relativePath, List.filterMap_map]
  exact List.filterMap_eq_map_iff_forall_eq_some.mpr fun _ _ => rfl

/-- The key of an entry is the key of its relative path. -/
theorem relativeKey_relativePath (names : Place) :
    (relativePath names).relativeKey = keyOf names := by
  unfold Path.relativeKey
  rw [names_relativePath]
  rfl

/-- The file name of an entry is the last of the names that lead to it. -/
theorem fileName?_entryPath {name : Name} (root : Path) (h : names.getLast? = some name) :
    (entryPath root names).fileName? = some name.bytes := by
  obtain ⟨front, rfl⟩ := List.getLast?_eq_some_iff.mp h
  unfold Path.fileName?
  rw [components_entryPath, components_relativePath, List.map_append, ← List.append_assoc,
    List.map_singleton, List.getLast?_concat]

/-- What is visited goes by the name that its path has. -/
theorem fileName?_path (root : Path) (visit : Visit) :
    visit.fileName? root = (visit.path root).fileName? := by
  unfold Visit.fileName? Visit.path
  cases hlast : visit.names.getLast? with
  | some name => exact (fileName?_entryPath root hlast).symm
  | none =>
    rw [List.getLast?_eq_none_iff.mp hlast]
    rfl

end Names

end ExportDiff
