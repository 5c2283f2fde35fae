/-
# ExportDiff.Proofs.Report.Verdicts — the verdicts among the lines of a report

A report ends with its verdict, and says that directories differ in a line of its own only where they
do. What a record holds is never read as a verdict. The name of a file is: it stands in the report as it
is, and with line feeds it begins lines of its own. So a report has the line that nothing differs where
nothing does, and besides where a name that it shows begins this line
(`verdicts_among_lines_of_compareTrees`), and that happens (`identicalVerdict_among_differences`). Names
without line feeds leave each verdict to its own reports.
-/

import Mathlib
import ExportDiff.Proofs.Report.Outline
import ExportDiff.Proofs.Tree.Events
import ExportDiff.Proofs.Tree.Exports

namespace ExportDiff

namespace Report

open Text

/-! ## Lines that stand out -/

/-- The characters that a report begins lines with, other than its verdict. -/
def ownBeginnings : List Char := [' ', 'F', 'D']

/-- A line as the report itself begins it, or a blank one. -/
def IsOwn (line : List Char) : Prop := ∀ c ∈ line.head?, c ∈ ownBeginnings

/-- A line that the report itself does not begin. -/
structure StandsOut (shown : List Char) : Prop where
  noReturn : '\r' ∉ shown
  first : ∃ c, shown.head? = some c ∧ c ∉ ownBeginnings

theorem standsOut_differences : StandsOut differencesVerdict.toList :=
  ⟨by decide +kernel, 'S', by decide +kernel, by decide⟩

theorem standsOut_identical : StandsOut identicalVerdict.toList :=
  ⟨by decide +kernel, 'N', by decide +kernel, by decide⟩

/-- What lines are read as. -/
def readsOf (outline : List String) : List (List Char) := outline.map fun line => readLine line.toList

section Reading

variable {shown line : List Char} {s front : String} {outline : List String}

theorem readsOf_append (xs ys : List String) : readsOf (xs ++ ys) = readsOf xs ++ readsOf ys :=
  List.map_append

theorem mem_readsOf_flatMap {α : Type} {xs : List α} {f : α → List String} :
    shown ∈ readsOf (xs.flatMap f) ↔ ∃ x ∈ xs, shown ∈ readsOf (f x) := by
  unfold readsOf
  rw [List.map_flatMap, List.mem_flatMap]

/-- A line that is read as one that stands out begins as this does. -/
theorem StandsOut.not_isOwn (h : StandsOut shown) (hread : readLine line = shown) : ¬ IsOwn line := by
  obtain ⟨c, hc, hbegins⟩ := h.first
  obtain ⟨rest, rfl⟩ := List.head?_eq_some_iff.mp hc
  intro hown
  apply hbegins
  apply hown c
  rcases (readLine_eq_iff h.noReturn).mp hread with rfl | rfl
  · rfl
  · rfl

theorem IsOwn.append (h : IsOwn line) (hne : line ≠ []) (rest : List Char) : IsOwn (line ++ rest) := by
  intro c hc
  rw [List.head?_append_of_ne_nil _ hne] at hc
  exact h c hc

theorem isOwn_of_head? {c : Char} (hc : line.head? = some c) (h : c ∈ ownBeginnings) : IsOwn line := by
  intro d hd
  obtain rfl : c = d := Option.some.inj (hc.symm.trans hd)
  exact h

theorem isOwn_of_margin (h : margin <+: line) : IsOwn line := by
  obtain ⟨rest, rfl⟩ := h
  exact isOwn_of_head? (c := ' ') rfl (by decide)

/-- What stands out is read in the outline, if anywhere. -/
theorem mem_lines_iff (hs : Whole s.toList) (h : StandsOut shown) :
    shown ∈ lines s.toList ↔ shown ∈ readsOf (outlineOf s) := by
  rw [hs.lines_eq]
  unfold readsOf outlineOf
  rw [List.map_map]
  simp only [List.mem_map, List.mem_filter, Function.comp_apply, String.toList_ofList,
    decide_eq_true_eq]
  constructor
  · rintro ⟨line, hline, hread⟩
    exact ⟨line, ⟨hline, mt isOwn_of_margin (h.not_isOwn hread)⟩, hread⟩
  · rintro ⟨line, ⟨hline, -⟩, hread⟩
    exact ⟨line, hline, hread⟩

theorem not_mem_readsOf (h : StandsOut shown) (hown : ∀ line ∈ outline, IsOwn line.toList) :
    shown ∉ readsOf outline := by
  intro hmem
  obtain ⟨line, hline, hread⟩ := List.mem_map.mp hmem
  exact h.not_isOwn hread (hown line hline)

/-- In a line with a name, what stands out can only begin inside the name. -/
theorem mem_readsOf_named (h : StandsOut shown) (name : String) (hfeed : '\n' ∉ front.toList)
    (hown : IsOwn front.toList) (hne : front.toList ≠ []) :
    shown ∈ readsOf (outlineOf (front ++ name ++ "\n")) ↔ shown ∈ linesBegun name.toList := by
  obtain ⟨first, hsplit⟩ := exists_splitOn_append hfeed name.toList
  have hended : endedLines (front ++ name ++ "\n").toList
      = (front.toList ++ first) :: (name.toList.splitOn '\n').tail := by
    rw [String.toList_append, String.toList_append, ← hsplit]
    exact endedLines_append_feed _
  rw [← mem_lines_iff (whole_feed _) h, (whole_feed _).lines_eq, hended, List.map_cons, List.mem_cons]
  apply or_iff_right
  intro hread
  exact h.not_isOwn hread.symm (hown.append hne first)

end Reading

/-! ## The lines of a report that stand out -/

/-- The names of files that a report shows. -/
def namesShown (c : TreeComparison) (maxItems : Nat) : List String :=
  c.onlyInBase.take maxItems ++ c.onlyInHead.take maxItems ++ c.fileDiffs.map (·.relPath)

section Parts

variable {shown : List Char} {front : String}

theorem not_mem_readsOf_line (h : StandsOut shown) (hfeed : '\n' ∉ front.toList)
    (hown : IsOwn front.toList) (hne : front.toList ≠ []) :
    shown ∉ readsOf (outlineOf (front ++ "\n")) := by
  intro hmem
  have hnamed := (mem_readsOf_named h "" hfeed hown hne).mp (by rwa [String.append_empty])
  cases hnamed

theorem not_mem_readsOf_empty (h : StandsOut shown) : shown ∉ readsOf [""] := by
  apply not_mem_readsOf h
  intro line hline
  obtain rfl := List.mem_singleton.mp hline
  exact fun c hc => by cases hc

/-- How many files are not shown is said behind blanks. -/
theorem not_mem_readsOf_moreLine (h : StandsOut shown) (count maxItems : Nat) :
    shown ∉ readsOf (outlineOf (moreLine "  " count maxItems)) := by
  rw [moreLine_eq_feed]
  split
  · apply not_mem_readsOf_line h
    · simp [feed_not_mem_toDigits]
    · apply isOwn_of_head? (c := ' ')
      · simp
      · decide
    · simp
  · exact List.not_mem_nil

/-- The lines of a list of files. -/
def pathLines (paths : List String) : List String := paths.map fun path => "  " ++ path ++ "\n"

theorem whole_of_mem_pathLines (paths : List String) : ∀ line ∈ pathLines paths, Whole line.toList := by
  intro line hline
  obtain ⟨path, -, rfl⟩ := List.mem_map.mp hline
  exact whole_feed _

theorem mem_readsOf_pathLines (h : StandsOut shown) (paths : List String) :
    shown ∈ readsOf (outlineOf (String.join (pathLines paths))) ↔
      ∃ path ∈ paths, shown ∈ linesBegun path.toList := by
  have hpath (path : String) : shown ∈ readsOf (outlineOf ("  " ++ path ++ "\n")) ↔
      shown ∈ linesBegun path.toList :=
    mem_readsOf_named h path (by decide) (isOwn_of_head? (c := ' ') (by decide) (by decide)) (by decide)
  rw [outlineOf_join (whole_of_mem_pathLines paths)]
  unfold pathLines
  rw [List.flatMap_map, mem_readsOf_flatMap]
  simp only [hpath]

theorem listing_eq (label : String) (paths : List String) (maxItems : Nat) :
    listing label paths maxItems
      = if paths.isEmpty then ""
        else label ++ ":" ++ "\n" ++ (String.join (pathLines (paths.take maxItems))
          ++ (moreLine "  " paths.length maxItems ++ "\n")) := by
  unfold listing pathLines
  simp [String.append_assoc]

theorem mem_readsOf_listing {label : String} (h : StandsOut shown) (hfeed : '\n' ∉ label.toList)
    (hlabel : label.toList.head? = some 'F') (paths : List String) (maxItems : Nat) :
    shown ∈ readsOf (outlineOf (listing label paths maxItems)) ↔
      ∃ path ∈ paths.take maxItems, shown ∈ linesBegun path.toList := by
  rw [listing_eq]
  split
  · next hempty =>
    rw [List.isEmpty_iff.mp hempty, List.take_nil]
    exact iff_of_false List.not_mem_nil fun ⟨path, hpath, _⟩ => by cases hpath
  · obtain ⟨rest, hrest⟩ := List.head?_eq_some_iff.mp hlabel
    have hheading : shown ∉ readsOf (outlineOf (label ++ ":" ++ "\n")) := by
      apply not_mem_readsOf_line h
      · simp [hfeed]
      · apply isOwn_of_head? (c := 'F')
        · simp [hrest]
        · decide
      · simp
    have hpaths := mem_readsOf_pathLines h (paths.take maxItems)
    have hmore := not_mem_readsOf_moreLine h paths.length maxItems
    have hend : shown ∉ readsOf (outlineOf "\n") := not_mem_readsOf_empty h
    rw [outlineOf_append (whole_feed _), outlineOf_append (whole_join (whole_of_mem_pathLines _)),
      outlineOf_append (whole_moreLine _ _ _), readsOf_append, readsOf_append, readsOf_append]
    simp only [List.mem_append, hheading, hpaths, hmore, hend, false_or, or_false]

theorem not_mem_readsOf_listOutline (h : StandsOut shown) (label : String) (count maxItems : Nat) :
    shown ∉ readsOf (listOutline label count maxItems) := by
  apply not_mem_readsOf h
  intro line hline
  have hblank : line.toList.head? = some ' ' := by
    unfold listOutline at hline
    split at hline
    · cases hline
    · rcases List.mem_append.mp hline with hline | hline
      · rcases List.mem_cons.mp hline with rfl | hline
        · simp [headingLine]
        · obtain ⟨number, -, rfl⟩ := List.mem_map.mp hline
          simp [numberLine]
      · split at hline
        · obtain rfl := List.mem_singleton.mp hline
          simp [restLine]
        · cases hline
  exact isOwn_of_head? hblank (by decide)

theorem mem_readsOf_blockOutline (h : StandsOut shown) (relPath : String)
    (missing unexpected maxItems : Nat) :
    shown ∈ readsOf (blockOutline relPath missing unexpected maxItems) ↔
      shown ∈ linesBegun relPath.toList := by
  have hname : shown ∈ readsOf (outlineOf ("Differences found in " ++ relPath ++ "\n")) ↔
      shown ∈ linesBegun relPath.toList :=
    mem_readsOf_named h relPath (by decide) (isOwn_of_head? (c := 'D') (by decide) (by decide))
      (by decide)
  have hmissing := not_mem_readsOf_listOutline h "Missing entries" missing maxItems
  have hunexpected := not_mem_readsOf_listOutline h "Unexpected entries" unexpected maxItems
  have hend := not_mem_readsOf_empty h
  unfold blockOutline
  rw [readsOf_append, readsOf_append, readsOf_append]
  simp only [List.mem_append, hname, hmissing, hunexpected, hend, or_false]

end Parts

section Reports

variable {shown : List Char} {c : TreeComparison} {maxItems : Nat}

theorem whole_render (c : TreeComparison) (maxItems : Nat) : Whole (render c maxItems).toList :=
  whole_feed _

theorem verdict_eq (c : TreeComparison) :
    verdict c = if c.hasDifferences then differencesVerdict else identicalVerdict := rfl

theorem plain_verdict (c : TreeComparison) : Plain (verdict c).toList := by
  rw [verdict_eq]
  split
  · exact ⟨by decide +kernel, by decide +kernel⟩
  · exact ⟨by decide +kernel, by decide +kernel⟩

theorem lines_verdict (c : TreeComparison) :
    lines (verdict c ++ "\n").toList = [(verdict c).toList] := by
  have hended : endedLines (verdict c ++ "\n").toList = [(verdict c).toList] := by
    rw [String.toList_append]
    exact endedLines_line (plain_verdict c).1
  rw [(whole_feed _).lines_eq, hended, List.map_singleton]
  exact congrArg (fun line => [line]) (endLine_reverse (plain_verdict c).2)

theorem differences_eq_verdict_iff :
    differencesVerdict.toList = (verdict c).toList ↔ c.hasDifferences = true := by
  rw [verdict_eq]
  cases c.hasDifferences with
  | false => exact iff_of_false (by decide +kernel) nofun
  | true => exact iff_of_true rfl rfl

theorem identical_eq_verdict_iff :
    identicalVerdict.toList = (verdict c).toList ↔ c.hasDifferences = false := by
  rw [verdict_eq]
  cases c.hasDifferences with
  | false => exact iff_of_true rfl rfl
  | true => exact iff_of_false (by decide +kernel) nofun

/-- A line that stands out is read in a report as its verdict, or because a name begins it. -/
theorem mem_lines_render_iff (h : StandsOut shown) :
    shown ∈ lines (render c maxItems).toList ↔ shown = (verdict c).toList ∨
      ∃ name ∈ namesShown c maxItems, shown ∈ linesBegun name.toList := by
  have hverdict : shown ∈ readsOf [verdict c] ↔ shown = (verdict c).toList := by
    rw [← outlineOf_verdict, ← mem_lines_iff (whole_feed _) h, lines_verdict, List.mem_singleton]
  have hbase : shown ∈ readsOf (outlineOf (listing "Files only in base" c.onlyInBase maxItems)) ↔
      ∃ name ∈ c.onlyInBase.take maxItems, shown ∈ linesBegun name.toList :=
    mem_readsOf_listing h (by decide) (by decide) _ _
  have hhead : shown ∈ readsOf (outlineOf (listing "Files only in head" c.onlyInHead maxItems)) ↔
      ∃ name ∈ c.onlyInHead.take maxItems, shown ∈ linesBegun name.toList :=
    mem_readsOf_listing h (by decide) (by decide) _ _
  have hblocks : shown ∈ readsOf (c.fileDiffs.flatMap fun d =>
        blockOutline d.relPath d.diff.missing.length d.diff.unexpected.length maxItems) ↔
      ∃ name ∈ c.fileDiffs.map (·.relPath), shown ∈ linesBegun name.toList := by
    rw [mem_readsOf_flatMap]
    simp only [mem_readsOf_blockOutline h, List.mem_map, exists_exists_and_eq_and]
  rw [mem_lines_iff (whole_render c maxItems) h, outlineOf_render]
  unfold reportOutline namesShown
  rw [readsOf_append, readsOf_append, readsOf_append]
  simp only [List.mem_append, hbase, hhead, hblocks, hverdict, or_and_right, exists_or]
  exact or_comm

/-- The last line of a report is its verdict. -/
theorem getLast?_lines_render (c : TreeComparison) (maxItems : Nat) :
    (lines (render c maxItems).toList).getLast? = some (verdict c).toList := by
  have hrender : endedLines (render c maxItems).toList = endedLines (beforeVerdict c maxItems).toList
      ++ endedLines (verdict c ++ "\n").toList := by
    rw [render_eq, String.toList_append, (whole_beforeVerdict c maxItems).endedLines_append]
  rw [(whole_render c maxItems).lines_eq, hrender, List.map_append, ← (whole_feed _).lines_eq,
    lines_verdict, List.getLast?_concat]

theorem hasDifferences_of_mem_namesShown {name : String} (h : name ∈ namesShown c maxItems) :
    c.hasDifferences = true := by
  rw [← Bool.not_eq_false, hasDifferences_eq_false_iff]
  rintro ⟨hbase, hhead, hdiffs⟩
  unfold namesShown at h
  rw [hbase, hhead, hdiffs, List.take_nil] at h
  cases h

/-- That directories differ is said in a line only where they do: otherwise no names are shown. -/
theorem differencesVerdict_mem_lines_iff :
    differencesVerdict.toList ∈ lines (render c maxItems).toList ↔ c.hasDifferences = true := by
  rw [mem_lines_render_iff standsOut_differences, differences_eq_verdict_iff]
  apply or_iff_left_of_imp
  rintro ⟨name, hname, -⟩
  exact hasDifferences_of_mem_namesShown hname

theorem identicalVerdict_mem_lines_iff :
    identicalVerdict.toList ∈ lines (render c maxItems).toList ↔ c.hasDifferences = false ∨
      ∃ name ∈ namesShown c maxItems, identicalVerdict.toList ∈ linesBegun name.toList := by
  rw [mem_lines_render_iff standsOut_identical, identical_eq_verdict_iff]

theorem getLast?_lines_render_eq_iff :
    (lines (render c maxItems).toList).getLast? = some differencesVerdict.toList ↔
      c.hasDifferences = true := by
  rw [getLast?_lines_render, Option.some_inj, eq_comm, differences_eq_verdict_iff]

end Reports

end Report

/-! ## The reports on directories -/

section Trees

variable {tree : FileTree} {here : FileTree.Place} {options : CompareOptions} {c : TreeComparison}
  {basePath headPath : Path} {load : Loader} {base head : FileTable} {name : String}
  {maxItems : Nat}

theorem exists_roots_of_compareTrees
    (h : (compareTrees tree here options basePath headPath).result = .ok c) :
    ∃ baseRoot headRoot, ensureDirectory tree here "Base" basePath = .ok baseRoot ∧
      ensureDirectory tree here "Head" headPath = .ok headRoot ∧
      (compareDirectories tree here options baseRoot headRoot).result = .ok c := by
  unfold compareTrees at h
  obtain ⟨baseRoot, hbase, h⟩ := Run.result_bind_eq_ok_iff.mp h
  obtain ⟨headRoot, hhead, h⟩ := Run.result_bind_eq_ok_iff.mp h
  rw [Run.result_between] at h
  exact ⟨baseRoot, headRoot, hbase, hhead, h⟩

/-- The names that a report on two tables shows are keys of theirs. -/
theorem TreeComparison.Exact.mem_keys_of_mem_namesShown (hc : c.Exact load options base head)
    (h : name ∈ Report.namesShown c maxItems) : name ∈ base.keys ∨ name ∈ head.keys := by
  rcases List.mem_append.mp h with h | hdiffers
  · rcases List.mem_append.mp h with hbase | hhead
    · exact Or.inl ((hc.mem_onlyInBase name).mp (List.mem_of_mem_take hbase)).1
    · exact Or.inr ((hc.mem_onlyInHead name).mp (List.mem_of_mem_take hhead)).1
  · obtain ⟨rs, ss, ⟨path, _, hfind, -, -⟩, -⟩ := (hc.mem_fileDiffs name).mp hdiffers
    exact Or.inl (FileTable.mem_keys_iff_find?.mpr ⟨path, hfind⟩)

/-- The keys of a discovery without line feeds in the names of exports are without line feeds. -/
theorem feed_not_mem_of_discoverFiles (htree : tree.Ordered) {root : Path} {files : FileTable}
    (hfiles : (discoverFiles tree here root).result = .ok files)
    (hfeed : ∀ names, IsExport tree here root names → ∀ name ∈ names, 0x0A ∉ name.bytes)
    (h : name ∈ files.keys) : '\n' ∉ name.toList := by
  obtain ⟨exports, -, hexports, rfl⟩ := exists_exports_of_discoverFiles htree hfiles
  rw [keys_tableOfPlaces, List.mem_toFinset] at h
  obtain ⟨names, hnames, rfl⟩ := List.mem_map.mp h
  intro hmem
  obtain ⟨part, hpart, hbyte⟩ := exists_mem_of_mem_keyOf (by decide) (by decide) hmem
  exact hfeed names ((hexports names).mp hnames) part hpart hbyte

/-- Directories `b` and `h`, the first with one file. -/
def treeWithFile (name : FileTree.Name) : FileTree :=
  { entries := [(⟨[0x62], by decide⟩, .directory [(name, .file "[]".toUTF8)]),
      (⟨[0x68], by decide⟩, .directory [])] }

theorem ordered_treeWithFile (fileName : FileTree.Name) : (treeWithFile fileName).Ordered := by
  have hsorted : Assoc.Sorted (treeWithFile fileName).entries := by
    apply List.pairwise_pair.mpr
    show ([0x62] : List UInt8) < [0x68]
    decide
  refine FileTree.Node.ordered_directory hsorted fun p hp => ?_
  rcases List.mem_cons.mp hp with rfl | hp
  · exact FileTree.Node.ordered_of_leaves (List.pairwise_singleton _ _)
      (List.forall_mem_singleton.mpr rfl)
  · obtain rfl := List.mem_singleton.mp hp
    exact FileTree.Node.ordered_of_leaves .nil nofun

/-- Of a comparison of two directories, the last line of the report says that they differ, and one of
its lines says so, exactly where they do. A line says that they do not differ exactly where this is so,
or where a name that the report shows begins this line. That takes a name with a line feed: without one
in the names that lead to exports, each verdict is a line of its own reports only. -/
theorem verdicts_among_lines_of_compareTrees (htree : tree.Ordered)
    (h : (compareTrees tree here options basePath headPath).result = .ok c) (maxItems : Nat) :
    let shown := Text.lines (Report.render c maxItems).toList
    let differences := Report.differencesVerdict.toList
    let identical := Report.identicalVerdict.toList
    (differences ∈ shown ↔ c.hasDifferences = true) ∧
      (shown.getLast? = some differences ↔ c.hasDifferences = true) ∧
      (identical ∈ shown ↔ c.hasDifferences = false ∨
        ∃ name ∈ Report.namesShown c maxItems, identical ∈ Text.linesBegun name.toList) ∧
      ∃ baseRoot headRoot, ensureDirectory tree here "Base" basePath = .ok baseRoot ∧
        ensureDirectory tree here "Head" headPath = .ok headRoot ∧
        ((∀ root ∈ [baseRoot, headRoot], ∀ names, IsExport tree here root names →
            ∀ name ∈ names, 0x0A ∉ name.bytes) →
          (identical ∈ shown ↔ c.hasDifferences = false)) := by
  intro shown differences identical
  have hidentical : identical ∈ shown ↔ c.hasDifferences = false ∨
      ∃ name ∈ Report.namesShown c maxItems, identical ∈ Text.linesBegun name.toList :=
    Report.identicalVerdict_mem_lines_iff
  refine ⟨Report.differencesVerdict_mem_lines_iff, Report.getLast?_lines_render_eq_iff, hidentical, ?_⟩
  obtain ⟨baseRoot, headRoot, hbaseRoot, hheadRoot, hresult⟩ := exists_roots_of_compareTrees h
  obtain ⟨base, head, hbase, hhead, htables⟩ := exists_tables_of_compareDirectories hresult
  refine ⟨baseRoot, headRoot, hbaseRoot, hheadRoot, fun hfeed => ?_⟩
  rw [List.forall_mem_cons, List.forall_mem_singleton] at hfeed
  rw [hidentical]
  apply or_iff_left
  rintro ⟨name, hname, hbegun⟩
  have hexact := (loads_and_exact_of_compareTables (CommandLine.sorted_of_discoverFiles hbase)
    (CommandLine.sorted_of_discoverFiles hhead) htables).2
  have hplain : '\n' ∉ name.toList := by
    rcases hexact.mem_keys_of_mem_namesShown hname with hkey | hkey
    · exact feed_not_mem_of_discoverFiles htree hbase hfeed.1 hkey
    · exact feed_not_mem_of_discoverFiles htree hhead hfeed.2 hkey
  rw [Text.linesBegun_eq_nil hplain] at hbegun
  cases hbegun

set_option maxRecDepth 10000 in
/-- A file below the base only, whose name holds the wording of both verdicts, but no line feed. -/
theorem verdicts_among_lines_of_worded_name :
    let key := Report.identicalVerdict ++ " " ++ Report.differencesVerdict ++ "json"
    let tree := treeWithFile ⟨Text.toBytes key, by decide +kernel⟩
    let c : TreeComparison := ⟨[key], [], [], 0⟩
    tree.Ordered ∧ (compareTrees tree [] ⟨[]⟩ (.ofString "b") (.ofString "h")).result = .ok c ∧
      ∀ maxItems,
        let shown := Text.lines (Report.render c maxItems).toList
        Report.differencesVerdict.toList ∈ shown ∧
          shown.getLast? = some Report.differencesVerdict.toList ∧
          Report.identicalVerdict.toList ∉ shown := by
  intro key tree c
  have hresult : (compareTrees tree [] ⟨[]⟩ (.ofString "b") (.ofString "h")).result = .ok c := by cbv
  refine ⟨ordered_treeWithFile _, hresult, fun maxItems => ?_⟩
  obtain ⟨hdifferences, hlast, hidentical, -⟩ :=
    verdicts_among_lines_of_compareTrees (ordered_treeWithFile _) hresult maxItems
  refine ⟨hdifferences.mpr rfl, hlast.mpr rfl, ?_⟩
  rw [hidentical]
  rintro (hsame | ⟨name, hname, hbegun⟩)
  · cases hsame
  · have hkey : name = key := by
      apply List.mem_singleton.mp
      apply List.mem_of_mem_take (i := maxItems)
      simpa [Report.namesShown, c] using hname
    rw [hkey, Text.linesBegun_eq_nil (by decide +kernel)] at hbegun
    cases hbegun

/-- A file below the base only, in whose name the verdict that nothing differs is a line. -/
theorem identicalVerdict_among_differences :
    let key := "a\n" ++ Report.identicalVerdict ++ "\nb.json"
    let tree := treeWithFile ⟨Text.toBytes key, by decide +kernel⟩
    let c : TreeComparison := ⟨[key], [], [], 0⟩
    tree.Ordered ∧ (compareTrees tree [] ⟨[]⟩ (.ofString "b") (.ofString "h")).result = .ok c ∧
      c.hasDifferences = true ∧
      Report.identicalVerdict.toList ∈ Text.lines (Report.render c Report.defaultMaxItems).toList := by
  intro key tree c
  refine ⟨ordered_treeWithFile _, ?_, rfl, ?_⟩
  · cbv
  · decide +kernel

end Trees

end ExportDiff
