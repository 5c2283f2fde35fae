/-
# ExportDiff.Proofs.Tree.Listing — the keys that a discovery lists

A discovery that can read every directory completes, and it lists the keys of the files below the root,
and of the links to files, that have the name of an export (`discoverFiles_lists_exactly`). Only the
last name on the way to a file is looked at: how the directories are called leaves nothing out, and a
directory is not listed whatever it is called. Each key comes with the path of an entry that has it. An
entry counts as a file exactly where the system gets to one by its path (`listed_iff_isFile`).

There is one condition more, and it is a silent one: a file at which the system does not look is passed
over, be it that its path is too long (`discoverFiles_passes_over`) or that a directory on the way may be
read, but not entered. The same of a directory makes the discovery fail.
-/

import Mathlib
import ExportDiff.Proofs.FileTree.Following
import ExportDiff.Proofs.Tree.Exports

namespace ExportDiff

open FileTree (Entries Name Node Place)

/-! ## The names of exports -/

/-- The name of an export: its bytes end in the suffix of exports, and in small letters it does not
show the marker of a non-production environment. -/
structure NamesExport (name : Name) : Prop where
  suffix : Text.toBytes Path.exportSuffix <:+ name.bytes
  production : ¬ Path.nonProductionMarker.toList <:+: Text.lower name.shown

/-- The suffix is looked for in what is shown of a name, but that is the same as in its bytes. -/
theorem isExportName_iff {bytes : List UInt8} :
    Path.isExportName bytes = true ↔ Text.toBytes Path.exportSuffix <:+ bytes := by
  have hsingle : ∀ c ∈ Path.exportSuffix.toList, Text.IsSingle c := by
    rw [show Path.exportSuffix.toList = ['.', 'j', 's', 'o', 'n'] from rfl]
    simp [Text.IsSingle]
  have hbytes : Path.exportSuffix.toList.map (fun c => UInt8.ofNat c.toNat)
      = Text.toBytes Path.exportSuffix := by cbv
  unfold Path.isExportName
  rw [List.isSuffixOf_iff_suffix, Text.isSuffix_ofBytes_iff hsingle, hbytes]

theorem namesExport_iff {name : Name} : NamesExport name ↔
    Path.isExportName name.bytes = true ∧ Path.isNonProductionName name.bytes = false := by
  have hmarked : Path.isNonProductionName name.bytes = true ↔
      Path.nonProductionMarker.toList <:+: Text.lower name.shown := Text.occursIn_iff
  rw [isExportName_iff, Bool.eq_false_iff, ne_eq, hmarked]
  exact ⟨fun h => ⟨h.suffix, h.production⟩, fun h => ⟨h.1, h.2⟩⟩

/-! ## Files -/

/-- Names lead from the start of a walk to a file, or to a link that the system follows to one from the
directory that holds the link. -/
inductive LeadsToFile (tree : FileTree) (start : Place) (links : Nat) (node : Node) (names : Place) :
    Prop
  | file (content : ByteArray) (h : node.at? names = some (.file content))
  | link (target : Path) (allowed left : Nat) (place : Place) (content : ByteArray)
      (h : node.at? names = some (.link target)) (hlinks : links = allowed + 1)
      (hfollow : tree.walk .direct true allowed
          (if target.isAbsolute then [] else tree.trailTo (start ++ names.dropLast))
          (FileTree.moves target) = .ok (.present place (.file content), left))

section Files

variable {tree : FileTree} {start names : Place} {links : Nat} {node : Node} {entries : Entries}

theorem leadsToFile_iff : LeadsToFile tree start links node names ↔
    ∃ x, node.at? names = some x ∧ leadsToFile tree start links names x = true := by
  constructor
  · rintro (⟨content, h⟩ | ⟨target, allowed, left, place, content, h, rfl, hfollow⟩)
    · exact ⟨_, h, rfl⟩
    · refine ⟨_, h, ?_⟩
      rw [leadsToFile, hfollow]
  · rintro ⟨x, h, hx⟩
    cases x with
    | file content => exact .file content h
    | directory inner => cases hx
    | link target =>
      cases links with
      | zero => cases hx
      | succ allowed =>
        rw [leadsToFile] at hx
        split at hx
        · next place content left hfollow =>
          exact .link target allowed left place content h rfl hfollow
        · cases hx

/-- What leads to a directory leads to no file. -/
theorem LeadsToFile.not_directory (h : LeadsToFile tree start links node names) :
    node.at? names ≠ some (.directory entries) := by
  intro hdirectory
  cases h with
  | file content h => cases h.symm.trans hdirectory
  | link target allowed left place content h => cases h.symm.trans hdirectory

end Files

/-! ## What is listed -/

/-- Every directory in which a name is asked for on the way down from the start of a walk may be
entered. -/
def Reached (tree : FileTree) (start names : Place) : Prop :=
  ∀ above, above <+: names → above ≠ names → tree.mayEnter (start ++ above) = true

/-- The directory to which names lead from the root of a walk can be listed: the system takes its path and
gets there, and it may be read. -/
structure Readable (tree : FileTree) (start : Place) (root : Path) (names : Place) : Prop where
  taken : FileTree.isTooLong (entryPath root names) = false
  reached : Reached tree start names
  read : tree.mayRead (start ++ names) = true

/-- Names lead from the root of a walk to what a discovery lists: to a file, or a link to one, whose
path the system takes and to which it gets, and whose own name, the last one, is the name of an export. -/
structure Listed (tree : FileTree) (start : Place) (links : Nat) (root : Path) (entries : Entries)
    (names : Place) : Prop where
  file : LeadsToFile tree start links (.directory entries) names
  taken : FileTree.isTooLong (entryPath root names) = false
  reached : Reached tree start names
  name : ∃ name, names.getLast? = some name ∧ NamesExport name

section Listing

variable {tree : FileTree} {here start : Place} {root : Path} {entries : Entries} {links : Nat}
  {names : Place} {node : Node}

theorem reached_cons_iff {name : Name} :
    Reached tree start (name :: names) ↔
      tree.mayEnter start = true ∧ Reached tree (start ++ [name]) names := by
  unfold Reached
  constructor
  · intro h
    refine ⟨?_, fun above habove hne => ?_⟩
    · have hstart := h [] List.nil_prefix (List.cons_ne_nil name names).symm
      rwa [List.append_nil] at hstart
    · rw [List.append_assoc, List.singleton_append]
      refine h (name :: above) (List.cons_prefix_cons.mpr ⟨rfl, habove⟩) fun heq => ?_
      exact hne (List.cons.inj heq).2
  · rintro ⟨hstart, hnames⟩ above habove hne
    cases above with
    | nil => rwa [List.append_nil]
    | cons other above =>
      obtain ⟨rfl, hrest⟩ := List.cons_prefix_cons.mp habove
      rw [← List.singleton_append, ← List.append_assoc]
      exact hnames above hrest fun heq => hne (heq ▸ rfl)

theorem mayDescend_iff : tree.mayDescend start names = true ↔ Reached tree start names := by
  induction names generalizing start with
  | nil =>
    refine iff_of_true rfl fun above habove hne => ?_
    exact absurd (List.prefix_nil.mp habove) hne
  | cons name names ih => rw [FileTree.mayDescend, Bool.and_eq_true, ih, reached_cons_iff]

theorem entryFault?_eq_none_iff :
    entryFault? tree start root names = none ↔
      FileTree.isTooLong (entryPath root names) = false ∧ Reached tree start names := by
  unfold entryFault?
  rw [← mayDescend_iff]
  cases FileTree.isTooLong (entryPath root names) with
  | true => exact iff_of_false nofun fun h => nomatch h.1
  | false =>
    cases tree.mayDescend start names with
    | true => exact iff_of_true rfl ⟨rfl, rfl⟩
    | false => exact iff_of_false nofun fun h => nomatch h.2

theorem refusal?_directory_eq_none_iff {inner : Entries} :
    refusal? tree start root (names, .directory inner) = none ↔ Readable tree start root names := by
  show (entryFault? tree start root names).or
    (if tree.mayRead (start ++ names) then none else some .denied) = none ↔ _
  rw [Option.or_eq_none_iff, entryFault?_eq_none_iff]
  constructor
  · rintro ⟨⟨htaken, hreached⟩, hread⟩
    refine ⟨htaken, hreached, ?_⟩
    by_contra hdenied
    rw [if_neg hdenied] at hread
    cases hread
  · intro h
    exact ⟨⟨h.taken, h.reached⟩, if_pos h.read⟩

/-- No directory is refused exactly where each of them can be listed. -/
theorem forall_refusal?_iff (tree : FileTree) (start : Place) (root : Path) (h : node.Ordered) :
    (∀ entry ∈ ([], node) :: node.descendants, refusal? tree start root entry = none) ↔
      ∀ names inner, node.at? names = some (.directory inner) →
        Readable tree start root names := by
  constructor
  · intro hall names inner hat
    exact refusal?_directory_eq_none_iff.mp
      (hall (names, .directory inner) (h.mem_cons_descendants.mpr hat))
  · rintro hall ⟨names, x⟩ hx
    cases x with
    | directory inner =>
      exact refusal?_directory_eq_none_iff.mpr (hall names inner (h.mem_cons_descendants.mp hx))
    | file content => rfl
    | link target => rfl

/-- Of what is visited, other than the root itself, the last name says whether it is an export. -/
theorem isExport_visitOf_iff {name : Name} {x : Node} (hlast : names.getLast? = some name) :
    ((visitOf tree root start links (names, x)).isExport root = true ∧
        (visitOf tree root start links (names, x)).isNonProduction root = false) ↔
      (entryFault? tree start root names = none ∧
        leadsToFile tree start links names x = true) ∧ NamesExport name := by
  have hname : (visitOf tree root start links (names, x)).fileName? root = some name.bytes := by
    rw [fileName?_path]
    exact fileName?_entryPath root hlast
  unfold Visit.isExport Visit.isNonProduction
  rw [hname, namesExport_iff, Option.any_some, Option.any_some, Bool.and_eq_true, and_assoc]
  show ((entryFault? tree start root names).isNone && leadsToFile tree start links names x) = true ∧
    _ ↔ _
  rw [Bool.and_eq_true, Option.isNone_iff_eq_none]

/-- Below a directory, the exports are what is listed. -/
theorem isExport_iff_listed
    (hroot : tree.resolve true here root = .ok (.present start (.directory entries), links)) :
    IsExport tree here root names ↔ Listed tree start links root entries names := by
  have hvisit : visitAt? tree here root names = ((Node.directory entries).at? names).map fun x =>
      visitOf tree root start links (names, x) := by
    unfold visitAt?
    rw [hroot]
  unfold IsExport
  rw [hvisit]
  constructor
  · rintro ⟨visit, hsome, hexport⟩
    obtain ⟨x, hx, rfl⟩ := Option.map_eq_some_iff.mp hsome
    cases hlast : names.getLast? with
    | none =>
      -- the root is a directory, and so no export
      obtain rfl := List.getLast?_eq_none_iff.mp hlast
      obtain rfl := Option.some.inj hx
      have hfile := (Bool.and_eq_true _ _).mp hexport.1
      have hdirectory := (Bool.and_eq_true _ _).mp hfile.1
      cases hdirectory.2
    | some name =>
      obtain ⟨⟨hfault, hleads⟩, hname⟩ := (isExport_visitOf_iff hlast).mp hexport
      obtain ⟨htaken, hreached⟩ := entryFault?_eq_none_iff.mp hfault
      exact ⟨leadsToFile_iff.mpr ⟨x, hx, hleads⟩, htaken, hreached, name, hlast, hname⟩
  · rintro ⟨hfile, htaken, hreached, name, hlast, hname⟩
    obtain ⟨x, hx, hleads⟩ := leadsToFile_iff.mp hfile
    have hfault := entryFault?_eq_none_iff.mpr ⟨htaken, hreached⟩
    refine ⟨_, Option.map_eq_some_iff.mpr ⟨x, hx, rfl⟩, ?_⟩
    exact (isExport_visitOf_iff hlast).mpr ⟨⟨hfault, hleads⟩, hname⟩

/-- An entry with names that are not too long for the system is listed exactly where its path leads to a
file and its own name is the name of an export. -/
theorem listed_iff_isFile
    (hroot : tree.resolve true here root = .ok (.present start (.directory entries), links))
    (hshort : ∀ name ∈ names, name.bytes.length ≤ FileTree.longestName) :
    Listed tree start links root entries names ↔
      (∃ x, (Node.directory entries).at? names = some x) ∧
        tree.isFile here (entryPath root names) = true ∧
        ∃ name, names.getLast? = some name ∧ NamesExport name := by
  constructor
  · rintro ⟨hfile, htaken, hreached, hname⟩
    obtain ⟨x, hx, hleads⟩ := leadsToFile_iff.mp hfile
    refine ⟨⟨x, hx⟩, ?_, hname⟩
    rw [FileTree.isFile_entryPath hroot hshort hx,
      entryFault?_eq_none_iff.mpr ⟨htaken, hreached⟩, hleads]
    rfl
  · rintro ⟨⟨x, hx⟩, hfile, hname⟩
    rw [FileTree.isFile_entryPath hroot hshort hx, Bool.and_eq_true, Option.isNone_iff_eq_none]
      at hfile
    obtain ⟨htaken, hreached⟩ := entryFault?_eq_none_iff.mp hfile.1
    exact ⟨leadsToFile_iff.mpr ⟨x, hx, hfile.2⟩, htaken, hreached, hname⟩

/-- A discovery that can read every directory lists the keys of exactly the files, and links to files,
that have the name of an export and at which the system looks. The path listed with a key is the
path of one of them that has the key; what is left of it without the root has the key. No directory is
listed. -/
theorem discoverFiles_lists_exactly (htree : tree.Ordered)
    (hroot : tree.resolve true here root = .ok (.present start (.directory entries), links))
    (hread : ∀ names inner, (Node.directory entries).at? names = some (.directory inner) →
      Readable tree start root names) :
    ∃ files, (discoverFiles tree here root).result = .ok files ∧
      (∀ key, key ∈ files.keys ↔ ∃ names, Listed tree start links root entries names ∧
        (relativePath names).relativeKey = key) ∧
      (∀ key path, Assoc.find? key files = some path →
        ∃ names, Listed tree start links root entries names ∧ path = entryPath root names ∧
          path.components = root.components ++ (relativePath names).components ∧
          (relativePath names).relativeKey = key) ∧
      ∀ names inner, (Node.directory entries).at? names = some (.directory inner) →
        entryPath root names ∉ files.map (·.2) := by
  have hnode := htree.of_resolve hroot
  have hresult := result_discoverFiles hroot ((forall_refusal?_iff tree start root hnode).mpr hread)
  obtain ⟨exports, -, hexports, hfiles⟩ := exists_exports_of_discoverFiles htree hresult
  have hlisted (names : Place) :
      names ∈ exports ↔ Listed tree start links root entries names := by
    rw [hexports, isExport_iff_listed hroot]
  have hpath (key : String) (path : Path)
      (h : Assoc.find? key (tableOfPlaces root exports) = some path) :
      ∃ names, Listed tree start links root entries names ∧ path = entryPath root names ∧
        (relativePath names).relativeKey = key := by
    rw [find?_tableOfPlaces] at h
    obtain ⟨names, hfound, rfl⟩ := Option.map_eq_some_iff.mp h
    refine ⟨names, ?_, rfl, ?_⟩
    · apply (hlisted names).mp
      exact List.mem_reverse.mp (List.mem_of_find?_eq_some hfound)
    · rw [relativeKey_relativePath]
      simpa using List.find?_some hfound
  refine ⟨_, hresult, ?_, ?_, ?_⟩
  · intro key
    rw [hfiles, keys_tableOfPlaces, List.mem_toFinset, List.mem_map]
    simp only [hlisted, relativeKey_relativePath]
  · intro key path h
    rw [hfiles] at h
    obtain ⟨names, hnames, rfl, hkey⟩ := hpath key path h
    exact ⟨names, hnames, rfl, components_entryPath root names, hkey⟩
  · intro names inner hdirectory hmem
    rw [hfiles] at hmem
    obtain ⟨⟨key, path⟩, hentry, heq⟩ := List.mem_map.mp hmem
    obtain ⟨other, hother, rfl, -⟩ :=
      hpath key path ((Assoc.sorted_ofList _).find?_of_mem hentry)
    -- a path tells the names, and those that lead to a directory lead to no file
    rw [entryPath_inj heq] at hother
    exact hother.file.not_directory hdirectory

/-- A directory with the name of a non-production export hides nothing and is not listed, nor is a link
to it; a link to a file is. What a directory holds that may not be entered is passed over. -/
theorem discoverFiles_lists_exactly_of_links :
    let bare : Name := ⟨Text.toBytes ".json", by decide⟩
    let skipped : Name := ⟨Text.toBytes "NonProd.json", by decide⟩
    let toFile : Name := ⟨Text.toBytes "b.json", by decide⟩
    let toDirectory : Name := ⟨Text.toBytes "c.json", by decide⟩
    let directory : Name := ⟨Text.toBytes "nonprod.json", by decide⟩
    let closed : Name := ⟨Text.toBytes "p", by decide⟩
    let inner : Name := ⟨Text.toBytes "a.json", by decide⟩
    let empty : Node := .file "[]".toByteArray
    let leaves : Entries := [(bare, empty), (skipped, empty),
      (toFile, .link (.ofString "nonprod.json/a.json")),
      (toDirectory, .link (.ofString "nonprod.json"))]
    let entries : Entries := leaves ++
      [(directory, .directory [(inner, empty)]), (closed, .directory [(inner, empty)])]
    let tree : FileTree := { entries := entries, mayEnter := (· != [closed]) }
    let root : Path := .ofString "/"
    let isListed := Listed tree [] FileTree.mostLinks root entries
    tree.Ordered ∧
      tree.resolve true [] root = .ok (.present [] (.directory entries), FileTree.mostLinks) ∧
      (∀ names inner, (Node.directory entries).at? names = some (.directory inner) →
        Readable tree [] root names) ∧
      isListed [directory, inner] ∧ ¬ isListed [closed, inner] ∧
      ∃ files, (discoverFiles tree [] root).result = .ok files ∧
        (∀ key, key ∈ files.keys ↔ ∃ names, isListed names ∧
          (relativePath names).relativeKey = key) ∧
        (∀ key path, Assoc.find? key files = some path →
          ∃ names, isListed names ∧ path = entryPath root names ∧
            path.components = root.components ++ (relativePath names).components ∧
            (relativePath names).relativeKey = key) ∧
        ∀ names inner, (Node.directory entries).at? names = some (.directory inner) →
          entryPath root names ∉ files.map (·.2) := by
  intro bare skipped toFile toDirectory directory closed inner empty leaves entries tree root isListed
  have htree : tree.Ordered := by
    refine Node.ordered_directory (by unfold Assoc.Sorted; decide) fun p hp => ?_
    have hleaves : ∀ leaf ∈ leaves, leaf.2.isDirectory = false := by decide
    rcases List.mem_append.mp hp with hp | hp
    · exact Node.ordered_of_isDirectory_eq_false (hleaves p hp)
    · have hinner : (Node.directory [(inner, empty)]).Ordered :=
        Node.ordered_of_leaves (List.pairwise_singleton _ _) (by decide)
      simp only [List.mem_cons, List.not_mem_nil, or_false] at hp
      rcases hp with rfl | rfl
      · exact hinner
      · exact hinner
  have hresolve : tree.resolve true [] root
      = .ok (.present [] (.directory entries), FileTree.mostLinks) := by cbv
  have hread := (forall_refusal?_iff tree [] root htree).mp (by decide)
  refine ⟨htree, hresolve, hread, ?_, ?_, discoverFiles_lists_exactly htree hresolve hread⟩
  · apply (isExport_iff_listed hresolve).mp
    exact ⟨⟨[directory, inner], true⟩, by cbv, by cbv, by cbv⟩
  · intro h
    exact absurd (mayDescend_iff.mpr h.reached) (by decide)

/-- Entries at the bottom of directories in one another, all with one name. -/
def nested (name : Name) (entries : Entries) : Nat → Entries
  | 0 => entries
  | depth + 1 => [(name, .directory (nested name entries depth))]

theorem ordered_nested {name : Name} (h : (Node.directory entries).Ordered) :
    ∀ depth, (Node.directory (nested name entries depth)).Ordered
  | 0 => h
  | depth + 1 => by
    refine Node.ordered_directory (List.pairwise_singleton _ _) fun p hp => ?_
    obtain rfl := List.mem_singleton.mp hp
    exact ordered_nested h depth

theorem tableOf_eq_nil {visits : List Visit} (h : ∀ visit ∈ visits, visit.isExport root = false) :
    tableOf root visits = [] := by
  have hnone : visits.filter (fun v => v.isExport root && !v.isNonProduction root) = [] := by
    apply List.filter_eq_nil_iff.mpr
    intro visit hvisit
    rw [h visit hvisit]
    exact Bool.false_ne_true
  unfold tableOf
  rw [hnone]
  rfl

/-- The name of a file can make its path too long where the paths of all directories are taken: fifteen
of them, one in the other, each with the longest name, and in the last one an export. It is passed over,
and the discovery completes. -/
theorem discoverFiles_passes_over :
    let long : Name := ⟨List.replicate FileTree.longestName 0x61, by decide +kernel⟩
    let file : Name := ⟨List.replicate 250 0x79 ++ Text.toBytes ".json", by decide +kernel⟩
    let empty : Node := .file "[]".toByteArray
    let entries : Entries := nested long [(file, empty)] 15
    let tree : FileTree := { entries := entries }
    let root : Path := .ofString "/"
    tree.Ordered ∧
      tree.resolve true [] root = .ok (.present [] (.directory entries), FileTree.mostLinks) ∧
      (∀ names inner, (Node.directory entries).at? names = some (.directory inner) →
        Readable tree [] root names) ∧
      (Node.directory entries).at? (List.replicate 15 long ++ [file]) = some empty ∧
      NamesExport file ∧ (discoverFiles tree [] root).result = .ok [] := by
  intro long file empty entries tree root
  have htree : tree.Ordered :=
    ordered_nested (Node.ordered_of_leaves (List.pairwise_singleton _ _) (by decide)) 15
  have hresolve : tree.resolve true [] root
      = .ok (.present [] (.directory entries), FileTree.mostLinks) := by cbv
  have hrefused : ∀ entry ∈ ([], Node.directory entries) :: (Node.directory entries).descendants,
      refusal? tree [] root entry = none := by decide +kernel
  refine ⟨htree, hresolve, (forall_refusal?_iff tree [] root htree).mp hrefused, by cbv, ?_, ?_⟩
  · rw [namesExport_iff]
    decide +kernel
  · rw [result_discoverFiles hresolve hrefused, tableOf_eq_nil]
    intro visit hvisit
    obtain ⟨entry, hentry, rfl⟩ := List.mem_map.mp hvisit
    have hnone : ∀ entry ∈ ([], Node.directory entries) :: (Node.directory entries).descendants,
        (visitOf tree root [] FileTree.mostLinks entry).isExport root = false := by decide +kernel
    exact hnone entry hentry

end Listing

end ExportDiff
