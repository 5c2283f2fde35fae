/-
# ExportDiff.Proofs.Tree.Verdict — the verdict and the exit status of a run

A report ends with one of two verdicts, never with both, and it ends with the one for identical
directories exactly where the comparison has no differences; the exit status is 0 in the same case. So
both depend on nothing but the two tables that a run discovers and the records behind their paths: a
run is successful, and says so, exactly where the tables hold the same files.
-/

import Mathlib
import ExportDiff.CommandLine.Execute
import ExportDiff.Proofs.Record.Identity
import ExportDiff.Proofs.Tree.Tables

namespace ExportDiff

/-! ## The last line of a report -/

namespace Report

variable {c : TreeComparison}

/-- A report whose last line is a verdict. -/
def EndsWith (report verdict : String) : Prop := ∃ front, report = front ++ verdict ++ "\n"

theorem endsWith_render (c : TreeComparison) (maxItems : Nat) :
    EndsWith (render c maxItems) (verdict c) := ⟨_, rfl⟩

theorem not_isSuffix_verdicts : ¬ differencesVerdict.toList <:+ identicalVerdict.toList := by
  decide +kernel

/-- No report ends with both verdicts: the shorter one would be the end of the longer one. -/
theorem not_endsWith_both {report : String} (hdiff : EndsWith report differencesVerdict) :
    ¬ EndsWith report identicalVerdict := by
  intro hsame
  obtain ⟨front, hfront⟩ := hdiff
  obtain ⟨front', hfront'⟩ := hsame
  have hlists := congrArg String.toList (hfront.symm.trans hfront')
  rw [String.toList_append, String.toList_append, String.toList_append, String.toList_append]
    at hlists
  have hline := List.append_cancel_right hlists
  have hshorter : differencesVerdict.toList.length ≤ identicalVerdict.toList.length := by
    decide +kernel
  -- both verdicts end one text, so the shorter one ends the longer one
  have hends : differencesVerdict.toList <:+ front'.toList ++ identicalVerdict.toList := by
    rw [← hline]
    exact List.suffix_append _ _
  exact not_isSuffix_verdicts
    (List.suffix_of_suffix_length_le hends (List.suffix_append _ _) hshorter)

/-- A report ends with the verdict for identical directories exactly where nothing differs. -/
theorem endsWith_identicalVerdict_iff (c : TreeComparison) (maxItems : Nat) :
    EndsWith (render c maxItems) identicalVerdict ↔ c.hasDifferences = false := by
  have hends := endsWith_render c maxItems
  unfold verdict at hends
  cases hdiff : c.hasDifferences with
  | false =>
    rw [hdiff] at hends
    exact iff_of_true hends rfl
  | true =>
    rw [hdiff] at hends
    exact iff_of_false (not_endsWith_both hends) nofun

end Report

/-- What a file is loaded with is known by the keys of what is parsed of its text. -/
theorem result_loadRecords_of_keys {tree : FileTree} {here : FileTree.Place} {p : Path}
    {content : String} {rs : List Record} (hread : tree.readText here p = .ok content)
    (hkeys : (parseRecords p content).toOption.map (·.map Record.key) = some (rs.map Record.key)) :
    (loadRecords tree here p).result = .ok rs := by
  unfold loadRecords
  rw [Run.result_between]
  show readRecords tree here p = _
  unfold readRecords
  rw [hread]
  show parseRecords p content = _
  cases hparse : parseRecords p content with
  | error failure =>
    rw [hparse] at hkeys
    cases hkeys
  | ok records =>
    rw [hparse] at hkeys
    -- no two records have one key, so the keys tell the records
    rw [List.map_injective_iff.mpr Record.key_injective (Option.some.inj hkeys)]

namespace CommandLine

theorem exitStatus_eq_zero_iff {c : TreeComparison} :
    exitStatus (.ok c) = 0 ↔ c.hasDifferences = false := by
  show (if c.hasDifferences then 1 else 0) = 0 ↔ c.hasDifferences = false
  cases c.hasDifferences with
  | false => exact iff_of_true rfl rfl
  | true => exact iff_of_false nofun nofun

/-! ## What a run compares -/

variable {a : Arguments} {tree : FileTree} {here : FileTree.Place} {base head : FileTable}

/-- A command line's directories are there, and these tables are discovered below them. -/
structure Arguments.Compares (a : Arguments) (tree : FileTree) (here : FileTree.Place)
    (base head : FileTable) : Prop where
  base : ∃ root, ensureDirectory tree here "Base" a.base = .ok root ∧
    (discoverFiles tree here root).result = .ok base
  head : ∃ root, ensureDirectory tree here "Head" a.head = .ok root ∧
    (discoverFiles tree here root).result = .ok head

/-- The files below a directory are listed in key order. -/
theorem sorted_of_discoverFiles {root : Path} {files : FileTable}
    (h : (discoverFiles tree here root).result = .ok files) : Assoc.Sorted files := by
  unfold discoverFiles at h
  rw [Run.result_between] at h
  unfold findExports at h
  split at h
  · cases h
  · next walk hwalk =>
    dsimp only at h
    split at h
    · obtain rfl := Except.ok.inj h
      exact Assoc.sorted_ofList _
    · cases h

/-- A run compares the tables that it discovers. -/
theorem Arguments.Compares.result_comparison (h : a.Compares tree here base head) :
    (a.comparison tree here).result
      = (compareTables (loadRecords tree here) ⟨a.ignoredFields⟩ base head).result := by
  obtain ⟨⟨baseRoot, hbaseRoot, hbase⟩, headRoot, hheadRoot, hhead⟩ := h
  show (compareTrees tree here ⟨a.ignoredFields⟩ a.base a.head).result = _
  -- neither the events nor the operations around a step change its result
  unfold compareTrees
  rw [hbaseRoot, hheadRoot]
  show (compareDirectories tree here ⟨a.ignoredFields⟩ baseRoot headRoot).result = _
  unfold compareDirectories
  rw [Run.result_bind_of_ok hbase, Run.result_bind_of_ok hhead]

/-- A run leaves the exit status and the report of the comparison of its tables. -/
theorem Arguments.Compares.status_and_output {c : TreeComparison} (h : a.Compares tree here base head)
    (hresult : (compareTables (loadRecords tree here) ⟨a.ignoredFields⟩ base head).result = .ok c)
    (requested : Option String) :
    (a.execute tree here requested).status = exitStatus (.ok c) ∧
      (a.execute tree here requested).output = Report.render c a.maxPrinted := by
  have hrun : (a.comparison tree here).result = .ok c := h.result_comparison.trans hresult
  constructor
  · show exitStatus (a.comparison tree here).result = _
    rw [hrun]
  · show outputText a.maxPrinted (a.comparison tree here).result = _
    rw [hrun]
    rfl

/-! ## The verdict -/

/-- Where the files of all shared keys load, two tables are compared exactly; the exit status is 0,
and the report ends with the verdict for identical directories, exactly where the tables hold the same
files; and that is the status and the report of every run that compares these tables. -/
theorem exact_and_verdict_iff_sameFiles (load : Loader) (options : CompareOptions)
    {base head : FileTable} (hbase : Assoc.Sorted base) (hhead : Assoc.Sorted head)
    (hload : ∀ key ∈ base.keys ∩ head.keys, ∃ rs ss, SharedRecords load base head key rs ss) :
    ∃ c, (compareTables load options base head).result = .ok c ∧
      c.Exact load options base head ∧
      (exitStatus (.ok c) = 0 ↔ SameFiles load options base head) ∧
      (∀ maxItems, Report.EndsWith (Report.render c maxItems) Report.identicalVerdict ↔
        SameFiles load options base head) ∧
      ∀ (a : Arguments) (tree : FileTree) (here : FileTree.Place) (requested : Option String),
        a.Compares tree here base head → load = loadRecords tree here →
        options = ⟨a.ignoredFields⟩ →
        (a.execute tree here requested).status = exitStatus (.ok c) ∧
          (a.execute tree here requested).output = Report.render c a.maxPrinted := by
  obtain ⟨c, hresult, hexact⟩ := exists_exact_compareTables load options hbase hhead hload
  have hsame := hexact.hasDifferences_eq_false_iff_sameFiles
  refine ⟨c, hresult, hexact, ?_, ?_, ?_⟩
  · rw [exitStatus_eq_zero_iff, hsame]
  · intro maxItems
    rw [Report.endsWith_identicalVerdict_iff, hsame]
  · rintro a tree here requested hcompares rfl rfl
    exact hcompares.status_and_output hresult requested

set_option maxRecDepth 10000 in
/-- Two directories with one export of one name, for which identifiers are left out. The two records
differ in the identifier and in an ignored field: both rules are needed to take them for the same. -/
theorem exact_and_verdict_of_ignored_field :
    let name : FileTree.Name := ⟨Text.toBytes "CaseEventToComplexTypes.json", by decide⟩
    let key : String := "CaseEventToComplexTypes.json"
    let rs : List Record := [.ofFields [("ID", .str "1"), ("LiveFrom", .str "x"), ("Name", .str "n")]]
    let ss : List Record := [.ofFields [("ID", .str "2"), ("LiveFrom", .str "y"), ("Name", .str "n")]]
    let baseText := "[\x7b\"ID\":\"1\",\"LiveFrom\":\"x\",\"Name\":\"n\"\x7d]"
    let headText := "[\x7b\"ID\":\"2\",\"LiveFrom\":\"y\",\"Name\":\"n\"\x7d]"
    let tree : FileTree :=
      { entries := [(⟨[0x62], by decide⟩, .directory [(name, .file baseText.toUTF8)]),
          (⟨[0x68], by decide⟩, .directory [(name, .file headText.toUTF8)])] }
    let a : Arguments := ⟨.ofString "b", .ofString "h", ["LiveFrom"], 20, .development⟩
    let base : FileTable := [(key, .ofString "/b/CaseEventToComplexTypes.json")]
    let head : FileTable := [(key, .ofString "/h/CaseEventToComplexTypes.json")]
    Assoc.Sorted base ∧ Assoc.Sorted head ∧ base.keys ∩ head.keys = {key} ∧
      SharedRecords (loadRecords tree []) base head key rs ss ∧
      ¬ (⟨[], true⟩ : NormalizeOptions).SameRecords rs ss ∧
      ¬ (⟨["LiveFrom"], false⟩ : NormalizeOptions).SameRecords rs ss ∧
      a.Compares tree [] base head ∧
      ∃ c, (compareTables (loadRecords tree []) ⟨a.ignoredFields⟩ base head).result = .ok c ∧
        c.Exact (loadRecords tree []) ⟨a.ignoredFields⟩ base head ∧
        SameFiles (loadRecords tree []) ⟨a.ignoredFields⟩ base head ∧
        (a.execute tree [] none).status = 0 := by
  intro name key rs ss baseText headText tree a base head
  have hbase : Assoc.Sorted base := List.pairwise_singleton _ _
  have hhead : Assoc.Sorted head := List.pairwise_singleton _ _
  have hkeys : base.keys ∩ head.keys = {key} := by decide
  have hbaseText : tree.readText [] (.ofString "/b/CaseEventToComplexTypes.json")
      = .ok baseText := by
    subst tree baseText name
    cbv
  have hheadText : tree.readText [] (.ofString "/h/CaseEventToComplexTypes.json")
      = .ok headText := by
    subst tree headText name
    cbv
  have hbaseRecords : (loadRecords tree []
      (.ofString "/b/CaseEventToComplexTypes.json")).result = .ok rs :=
    result_loadRecords_of_keys hbaseText (by decide +kernel)
  have hheadRecords : (loadRecords tree []
      (.ofString "/h/CaseEventToComplexTypes.json")).result = .ok ss :=
    result_loadRecords_of_keys hheadText (by decide +kernel)
  have hshared : SharedRecords (loadRecords tree []) base head key rs ss :=
    ⟨_, _, rfl, rfl, hbaseRecords, hheadRecords⟩
  have hbaseRoot : ensureDirectory tree [] "Base" a.base = .ok (.ofString "/b") := by cbv
  have hheadRoot : ensureDirectory tree [] "Head" a.head = .ok (.ofString "/h") := by cbv
  have hbaseFiles : (discoverFiles tree [] (.ofString "/b")).result = .ok base := by
    subst base tree key name
    cbv
  have hheadFiles : (discoverFiles tree [] (.ofString "/h")).result = .ok head := by
    subst head tree key name
    cbv
  have hcompares : a.Compares tree [] base head :=
    ⟨⟨_, hbaseRoot, hbaseFiles⟩, ⟨_, hheadRoot, hheadFiles⟩⟩
  have hsame : SameFiles (loadRecords tree []) ⟨a.ignoredFields⟩ base head := by
    refine ⟨rfl, fun other rs' ss' hother => ?_⟩
    have hmem : other ∈ base.keys ∩ head.keys := by
      obtain ⟨basePath, headPath, hp, hq, -⟩ := hother
      exact Finset.mem_inter.mpr ⟨FileTable.mem_keys_iff_find?.mpr ⟨_, hp⟩,
        FileTable.mem_keys_iff_find?.mpr ⟨_, hq⟩⟩
    rw [hkeys, Finset.mem_singleton] at hmem
    subst hmem
    obtain ⟨rfl, rfl⟩ := hshared.unique hother
    rw [NormalizeOptions.sameRecords_iff_keys_eq]
    decide +kernel
  obtain ⟨c, hresult, hexact, hstatus, -, hrun⟩ :=
    exact_and_verdict_iff_sameFiles (loadRecords tree []) ⟨a.ignoredFields⟩ hbase hhead (by
      intro other hother
      rw [hkeys, Finset.mem_singleton] at hother
      rw [hother]
      exact ⟨rs, ss, hshared⟩)
  refine ⟨hbase, hhead, hkeys, hshared, ?_, ?_, hcompares, c, hresult, hexact, hsame, ?_⟩
  · rw [NormalizeOptions.sameRecords_iff_keys_eq]
    decide +kernel
  · rw [NormalizeOptions.sameRecords_iff_keys_eq]
    decide +kernel
  · rw [(hrun a tree [] none hcompares rfl rfl).1]
    exact hstatus.mpr hsame

end CommandLine

end ExportDiff
