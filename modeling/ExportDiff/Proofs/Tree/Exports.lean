/-
# ExportDiff.Proofs.Tree.Exports — which files a discovery lists

A discovery visits what is below a directory, each entry once, and puts the exports into a table by
their keys (`exists_exports_of_discoverFiles`). Of exports with one key, only the one visited last is
in the table. A key is what is shown of the names that lead to an export, so no export is lost exactly where
no two of them are shown alike (`discoverFiles_complete_iff`). Names that are text are not shown alike;
names that are not may be, and then an export is lost (`discoverFiles_loses_export`).
-/

import Mathlib
import ExportDiff.Proofs.FileTree.Descendants
import ExportDiff.Proofs.FileTree.Names
import ExportDiff.Proofs.Tree.Pairing

namespace ExportDiff

open FileTree (Name Node Place)

/-! ## Exports -/

/-- The visit of an entry below the start of a walk. -/
def visitOf (tree : FileTree) (root : Path) (start : Place) (links : Nat) (entry : Place × Node) :
    Visit :=
  ⟨entry.1, (entryFault? tree start root entry.1).isNone &&
    leadsToFile tree start links entry.1 entry.2⟩

/-- The visit of the entry that some names lead to from the root of a walk. -/
def visitAt? (tree : FileTree) (here : Place) (root : Path) (names : Place) : Option Visit :=
  match tree.resolve true here root with
  | .ok (.present start node, links) =>
    (node.at? names).map fun x => visitOf tree root start links (names, x)
  | _ => none

/-- Some names lead to an export: to a file, or a link to one, at which the system looks, and which has
the name of an export, and not of a non-production one. -/
def IsExport (tree : FileTree) (here : Place) (root : Path) (names : Place) : Prop :=
  ∃ visit, visitAt? tree here root names = some visit ∧ visit.isExport root = true ∧
    visit.isNonProduction root = false

/-- No export is lost: the table has as many files as there are exports, and under the key of each
export it has this very export. -/
structure FileTable.Complete (files : FileTable) (root : Path) (exports : List Place) : Prop where
  length : files.length = exports.length
  find? : ∀ names ∈ exports, Assoc.find? (keyOf names) files = some (entryPath root names)

/-- What a table tells of exports. It has as many files as there are keys, and the key of an export has
the last export with this key. The table is complete exactly where no two exports are led to by names
that are shown alike, and so where all names are text. -/
structure FileTable.Lists (files : FileTable) (root : Path) (exports : List Place) : Prop where
  length : files.length = (exports.map keyOf).toFinset.card
  last : ∀ names ∈ exports, ∃ last ∈ exports, keyOf last = keyOf names ∧
    (∀ other ∈ exports, keyOf other = keyOf names → other = last ∨ other < last) ∧
    Assoc.find? (keyOf names) files = some (entryPath root last)
  complete_iff : files.Complete root exports ↔
    ∀ v ∈ exports, ∀ w ∈ exports, v.map Name.shown = w.map Name.shown → v = w
  complete_of_text : (∀ names ∈ exports, ∀ name ∈ names, name.IsText) →
    files.Complete root exports

/-- The table of some exports, which are given by the names that lead to them. -/
def tableOfPlaces (root : Path) (exports : List Place) : FileTable :=
  Assoc.ofList (exports.map fun names => (keyOf names, entryPath root names))

section Table

variable {root : Path} {exports : List Place} {names : Place}

/-- A key finds the last of the exports that have it. -/
theorem find?_tableOfPlaces (root : Path) (exports : List Place) (key : String) :
    Assoc.find? key (tableOfPlaces root exports)
      = (exports.reverse.find? (keyOf · = key)).map (entryPath root) := by
  unfold tableOfPlaces
  rw [Assoc.find?_ofList, ← List.map_reverse, List.find?_map, Option.map_map]
  rfl

/-- The key of an export is the key of a last one. -/
theorem exists_find?_reverse (h : names ∈ exports) :
    ∃ last ∈ exports, keyOf last = keyOf names ∧
      exports.reverse.find? (keyOf · = keyOf names) = some last := by
  have hsome : (exports.reverse.find? (keyOf · = keyOf names)).isSome = true :=
    List.find?_isSome.mpr ⟨names, List.mem_reverse.mpr h, decide_eq_true rfl⟩
  obtain ⟨last, hlast⟩ := Option.isSome_iff_exists.mp hsome
  exact ⟨last, List.mem_reverse.mp (List.mem_of_find?_eq_some hlast),
    by simpa using List.find?_some hlast, hlast⟩

theorem keys_tableOfPlaces (root : Path) (exports : List Place) :
    (tableOfPlaces root exports).keys = (exports.map keyOf).toFinset := by
  ext key
  rw [FileTable.mem_keys_iff_find?, find?_tableOfPlaces, List.mem_toFinset, List.mem_map]
  constructor
  · rintro ⟨path, hpath⟩
    obtain ⟨names, hnames, -⟩ := Option.map_eq_some_iff.mp hpath
    exact ⟨names, List.mem_reverse.mp (List.mem_of_find?_eq_some hnames),
      by simpa using List.find?_some hnames⟩
  · rintro ⟨names, hnames, rfl⟩
    obtain ⟨last, -, -, hlast⟩ := exists_find?_reverse hnames
    exact ⟨entryPath root last, by rw [hlast]; rfl⟩

/-- There are as many files as exports have keys. -/
theorem length_tableOfPlaces (root : Path) (exports : List Place) :
    (tableOfPlaces root exports).length = (exports.map keyOf).toFinset.card := by
  have hnodup : ((tableOfPlaces root exports).map (·.1)).Nodup :=
    Assoc.Sorted.nodup_keys (Assoc.sorted_ofList _)
  rw [← keys_tableOfPlaces root, FileTable.keys, List.toFinset_card_of_nodup hnodup,
    List.length_map]

/-- Of exports in order that have one key, the key finds the last one. -/
theorem exists_last_of_mem (hsorted : exports.Pairwise (· < ·)) (hnames : names ∈ exports) :
    ∃ last ∈ exports, keyOf last = keyOf names ∧
      (∀ other ∈ exports, keyOf other = keyOf names → other = last ∨ other < last) ∧
      Assoc.find? (keyOf names) (tableOfPlaces root exports) = some (entryPath root last) := by
  obtain ⟨last, hmem, hkey, hlast⟩ := exists_find?_reverse hnames
  obtain ⟨-, behind, before, hsplit, hbehind⟩ := List.find?_eq_some_iff_append.mp hlast
  have hexports : exports = before.reverse ++ last :: behind.reverse := by
    rw [← List.reverse_reverse exports, hsplit]
    simp
  refine ⟨last, hmem, hkey, ?_, ?_⟩
  · intro other hother hkeyOther
    rw [hexports] at hother hsorted
    rcases List.mem_append.mp hother with hother | hother
    · exact Or.inr ((List.pairwise_append.mp hsorted).2.2 other hother last List.mem_cons_self)
    rcases List.mem_cons.mp hother with rfl | hother
    · exact Or.inl rfl
    · -- nothing behind the last one has the key
      have hne := hbehind other (List.mem_reverse.mp hother)
      simp [hkeyOther] at hne
  · rw [find?_tableOfPlaces, hlast]
    rfl

/-- No export is lost exactly where no two of them are shown alike. -/
theorem complete_tableOfPlaces_iff (root : Path) (hnodup : exports.Nodup) :
    (tableOfPlaces root exports).Complete root exports ↔
      ∀ v ∈ exports, ∀ w ∈ exports, v.map Name.shown = w.map Name.shown → v = w := by
  simp only [← keyOf_eq_iff]
  constructor
  · intro h v hv w hw hkey
    have hpath := h.find? v hv
    rw [hkey, h.find? w hw] at hpath
    exact (entryPath_inj (Option.some.inj hpath)).symm
  · intro hinj
    refine ⟨?_, fun names hnames => ?_⟩
    · have hkeys : (exports.map keyOf).Nodup := hnodup.map_on hinj
      rw [length_tableOfPlaces, List.toFinset_card_of_nodup hkeys, List.length_map]
    · obtain ⟨last, hmem, hkey, hlast⟩ := exists_find?_reverse hnames
      rw [find?_tableOfPlaces, hlast, hinj last hmem names hnames hkey]
      rfl

theorem lists_tableOfPlaces (hsorted : exports.Pairwise (· < ·)) :
    (tableOfPlaces root exports).Lists root exports := by
  have hnodup : exports.Nodup := by
    refine hsorted.imp ?_
    intro v w hlt heq
    exact List.lt_irrefl w (heq ▸ hlt)
  have hcomplete := complete_tableOfPlaces_iff root hnodup
  exact {
    length := length_tableOfPlaces root exports
    last := fun _ hnames => exists_last_of_mem hsorted hnames
    complete_iff := hcomplete
    complete_of_text := fun htext => hcomplete.mpr fun v hv w hw halike =>
      eq_of_keyOf_eq (htext v hv) (htext w hw) (keyOf_eq_iff.mpr halike) }

end Table

/-! ## Discoveries -/

section Discovery

variable {tree : FileTree} {here : Place} {root : Path} {files : FileTable}

/-- A discovery to which no directory is refused lists the exports among all that it visits. -/
theorem result_discoverFiles {start : Place} {node : Node} {links : Nat}
    (hresolve : tree.resolve true here root = .ok (.present start node, links))
    (hrefused : ∀ entry ∈ ([], node) :: node.descendants, refusal? tree start root entry = none) :
    (discoverFiles tree here root).result = .ok (tableOf root
      ((([], node) :: node.descendants).map (visitOf tree root start links))) := by
  have hnone : ((([], node) :: node.descendants).findSome? fun entry =>
      (refusal? tree start root entry).map (entryPath root entry.1, ·)) = none := by
    rw [List.findSome?_eq_none_iff]
    intro entry hentry
    rw [hrefused entry hentry]
    rfl
  have hall : ((([], node) :: node.descendants).takeWhile fun entry =>
      (refusal? tree start root entry).isNone) = ([], node) :: node.descendants := by
    rw [List.takeWhile_eq_self_iff]
    intro entry hentry
    rw [hrefused entry hentry]
    rfl
  unfold discoverFiles
  rw [Run.result_between]
  unfold findExports walkBelow startWalk
  rw [hresolve]
  simp only [Except.map]
  rw [hnone, hall]
  rfl

/-- A discovery that completes has visited everything below the node that the root leads to. -/
theorem exists_start_of_discoverFiles (h : (discoverFiles tree here root).result = .ok files) :
    ∃ start node links, tree.resolve true here root = .ok (.present start node, links) ∧
      files = tableOf root
        ((([], node) :: node.descendants).map (visitOf tree root start links)) := by
  have hresult := h
  unfold discoverFiles at h
  rw [Run.result_between] at h
  unfold findExports walkBelow startWalk at h
  cases hresolve : tree.resolve true here root with
  | error e =>
    rw [hresolve] at h
    cases h
  | ok found =>
    obtain ⟨target, links⟩ := found
    cases target with
    | absent directory name =>
      rw [hresolve] at h
      cases h
    | present start node =>
      rw [hresolve] at h
      simp only [Except.map] at h
      cases hrefused : (([], node) :: node.descendants).findSome? fun entry =>
          (refusal? tree start root entry).map (entryPath root entry.1, ·) with
      | some refused =>
        rw [hrefused] at h
        cases h
      | none =>
        rw [List.findSome?_eq_none_iff] at hrefused
        rw [result_discoverFiles hresolve fun entry hentry =>
          Option.map_eq_none_iff.mp (hrefused entry hentry)] at hresult
        exact ⟨start, node, links, rfl, (Except.ok.inj hresult).symm⟩

/-- What it has listed are the exports below the root, in the order of the names that lead to them. -/
theorem exists_exports_of_discoverFiles (htree : tree.Ordered)
    (h : (discoverFiles tree here root).result = .ok files) :
    ∃ exports : List Place, exports.Pairwise (· < ·) ∧
      (∀ names, names ∈ exports ↔ IsExport tree here root names) ∧
      files = tableOfPlaces root exports := by
  obtain ⟨start, node, links, hresolve, rfl⟩ := exists_start_of_discoverFiles h
  have hnode := htree.of_resolve hresolve
  refine ⟨(((([], node) :: node.descendants).map (visitOf tree root start links)).filter
    fun v => v.isExport root && !v.isNonProduction root).map (·.names), ?_, ?_, ?_⟩
  · refine hnode.pairwise_cons_descendants.sublist ?_
    have hvisits := (List.filter_sublist (p := fun v => v.isExport root && !v.isNonProduction root)
      (l := (([], node) :: node.descendants).map (visitOf tree root start links))).map (·.names)
    rwa [List.map_map] at hvisits
  · intro names
    unfold IsExport visitAt?
    rw [hresolve]
    simp only [List.mem_map, List.mem_filter, Bool.and_eq_true, Bool.not_eq_true']
    constructor
    · rintro ⟨visit, ⟨⟨⟨place, x⟩, hx, rfl⟩, hpasses⟩, rfl⟩
      exact ⟨_, Option.map_eq_some_iff.mpr ⟨x, hnode.mem_cons_descendants.mp hx, rfl⟩, hpasses⟩
    · rintro ⟨visit, hvisit, hpasses⟩
      obtain ⟨x, hx, rfl⟩ := Option.map_eq_some_iff.mp hvisit
      exact ⟨_, ⟨⟨_, hnode.mem_cons_descendants.mpr hx, rfl⟩, hpasses⟩, rfl⟩
  · unfold tableOf tableOfPlaces
    rw [List.map_map]
    rfl

/-- A discovery that completes lists the exports below the root by what is shown of the names that
lead to them. It loses none exactly where no two of them are shown alike, as where all names are text;
of exports that are shown alike, it lists the last one. -/
theorem discoverFiles_complete_iff (htree : tree.Ordered)
    (h : (discoverFiles tree here root).result = .ok files) :
    ∃ exports : List Place, exports.Pairwise (· < ·) ∧
      (∀ names, names ∈ exports ↔ IsExport tree here root names) ∧
      files.Lists root exports := by
  obtain ⟨exports, hsorted, hexports, rfl⟩ := exists_exports_of_discoverFiles htree h
  exact ⟨exports, hsorted, hexports, lists_tableOfPlaces hsorted⟩

/-- An export in a directory, beside one that is left out. -/
theorem discoverFiles_complete_iff_of_nested :
    let directory : Name := ⟨Text.toBytes "Case", by decide⟩
    let listed : Name := ⟨Text.toBytes "a.json", by decide⟩
    let skipped : Name := ⟨Text.toBytes "nonprod.json", by decide⟩
    let empty : Node := .file "[]".toByteArray
    let tree : FileTree :=
      { entries := [(directory, .directory [(listed, empty), (skipped, empty)])] }
    let root : Path := .ofString "/"
    let files : FileTable := [("Case/a.json", .ofString "/Case/a.json")]
    tree.Ordered ∧ (discoverFiles tree [] root).result = .ok files ∧
      ∃ exports : List Place, exports.Pairwise (· < ·) ∧
        (∀ names, names ∈ exports ↔ IsExport tree [] root names) ∧
        files.Lists root exports := by
  intro directory listed skipped empty tree root files
  have htree : tree.Ordered := by
    refine Node.ordered_directory (List.pairwise_singleton _ _) fun p hp => ?_
    obtain rfl := List.mem_singleton.mp hp
    exact Node.ordered_of_leaves (by unfold Assoc.Sorted; decide) (by decide)
  have hresolve : tree.resolve true [] root
      = .ok (.present [] (.directory tree.entries), FileTree.mostLinks) := by cbv
  have hresult : (discoverFiles tree [] root).result = .ok files := by
    rw [result_discoverFiles hresolve (by decide)]
    cbv
  exact ⟨htree, hresult, discoverFiles_complete_iff htree hresult⟩

/-- Two exports whose names are no text and are shown alike. -/
theorem discoverFiles_loses_export :
    let v : Name := ⟨0xFE :: Text.toBytes ".json", by decide⟩
    let w : Name := ⟨0xFF :: Text.toBytes ".json", by decide⟩
    let empty : Node := .file "[]".toByteArray
    let tree : FileTree := { entries := [(v, empty), (w, empty)] }
    let root : Path := .ofString "/"
    tree.Ordered ∧ IsExport tree [] root [v] ∧ IsExport tree [] root [w] ∧ v ≠ w ∧
      (discoverFiles tree [] root).result = .ok [(keyOf [v], entryPath root [w])] := by
  intro v w empty tree root
  refine ⟨?_, ?_, ?_, by decide, ?_⟩
  · exact Node.ordered_of_leaves (by unfold Assoc.Sorted; decide) (by decide)
  · exact ⟨⟨[v], true⟩, by cbv, by cbv, by cbv⟩
  · exact ⟨⟨[w], true⟩, by cbv, by cbv, by cbv⟩
  · have hresolve : tree.resolve true [] root
        = .ok (.present [] (.directory tree.entries), FileTree.mostLinks) := by cbv
    have hkeys : keyOf [v] = keyOf [w] := keyOf_eq_iff.mpr (by cbv)
    rw [result_discoverFiles hresolve (by decide)]
    have hvisits : (([], .directory tree.entries) :: (Node.directory tree.entries).descendants).map
        (visitOf tree root [] FileTree.mostLinks) = [⟨[], false⟩, ⟨[v], true⟩, ⟨[w], true⟩] := by cbv
    have hexports : [(⟨[], false⟩ : Visit), ⟨[v], true⟩, ⟨[w], true⟩].filter
        (fun visit => visit.isExport root && !visit.isNonProduction root)
          = [⟨[v], true⟩, ⟨[w], true⟩] := by cbv
    unfold tableOf
    rw [hvisits, hexports]
    show Except.ok (Assoc.ofList [(keyOf [v], entryPath root [v]), (keyOf [w], entryPath root [w])])
      = _
    rw [hkeys]
    simp [Assoc.ofList, Assoc.insert]

end Discovery

end ExportDiff
