/-
# ExportDiff.Proofs.Tree.Mirror — comparing the other way round

Which of two directories is called the base decides nothing but the side on which a difference is
told: comparing them the other way round completes in the same cases, and with the same files in the
same order, what is missing and what is unexpected exchanged (`TreeComparison.mirror`).

The two runs are not alike in what they report, nor always in what they fail with: a run that cannot
complete ends with the first failure that it meets, and the other one meets them in another order. So
they are compared by what they yield alone (`Run.value?`). There, steps that do not wait for each
other can be exchanged, and this is all that tells the two directions apart: both roots are looked at,
both are walked, and both files of a shared key are loaded, one before the other.
-/

import ExportDiff.Proofs.Multiset.Difference
import ExportDiff.Proofs.Tree.Verdict

namespace ExportDiff

/-! ## What a run yields -/

namespace Run

variable {α β γ : Type}

/-- What a run yields, if it completes. -/
def value? (run : Run α) : Option α := run.result.toOption

theorem value?_eq_some_iff {run : Run α} {x : α} : run.value? = some x ↔ run.result = .ok x := by
  unfold value?
  cases run.result with
  | ok y =>
    show some y = some x ↔ Except.ok y = Except.ok x
    rw [Option.some.injEq, Except.ok.injEq]
  | error failure => exact iff_of_false nofun nofun

@[simp] theorem value?_pure (x : α) : (pure x : Run α).value? = some x := rfl

@[simp] theorem value?_bind (run : Run α) (next : α → Run β) :
    (run >>= next).value? = run.value?.bind fun x => (next x).value? := by
  unfold value?
  rw [result_bind]
  cases run.result <;> rfl

@[simp] theorem value?_between (start : Log.Event) (ended : α → Log.Event)
    (failed : Failure → Log.Event) (body : Run α) :
    (between start ended failed body).value? = body.value? := rfl

/-- Of two runs that do not wait for each other, either can come first. -/
theorem value?_bind_comm (first : Run α) (second : Run β) (next : α → β → Run γ) :
    (first >>= fun x => second >>= fun y => next x y).value?
      = (second >>= fun y => first >>= fun x => next x y).value? := by
  simp only [value?_bind]
  exact Option.bind_comm _ _

/-- Two runs that start with the same value yield the same under `f`, where they go on so. -/
theorem value?_bind_eq_map {run run' : Run α} {next : α → Run β} {next' : α → Run γ} {f : β → γ}
    (hrun : run'.value? = run.value?)
    (hnext : ∀ x, run.value? = some x → (next' x).value? = (next x).value?.map f) :
    (run' >>= next').value? = (run >>= next).value?.map f := by
  rw [value?_bind, value?_bind, hrun]
  cases hx : run.value? with
  | none => rfl
  | some x => exact hnext x hx

end Run

/-! ## Mirrored results -/

/-- The differences of two files, told from the other side. -/
def FileDiff.mirror (d : FileDiff) : FileDiff :=
  ⟨d.relPath, ⟨d.diff.unexpected, d.diff.missing⟩, d.head, d.base⟩

/-- The differences of two directories, told from the other side. -/
def TreeComparison.mirror (c : TreeComparison) : TreeComparison :=
  ⟨c.onlyInHead, c.onlyInBase, c.fileDiffs.map FileDiff.mirror, c.filesCompared⟩

@[simp] theorem FileDiff.mirror_mirror (d : FileDiff) : d.mirror.mirror = d := rfl

@[simp] theorem TreeComparison.mirror_mirror (c : TreeComparison) : c.mirror.mirror = c := by
  have hdiffs : (c.fileDiffs.map FileDiff.mirror).map FileDiff.mirror = c.fileDiffs := by
    rw [List.map_map]
    exact List.map_id _
  unfold mirror
  rw [hdiffs]

/-- A shared file with the two sides exchanged. -/
def swapSides (file : String × Path × Path) : String × Path × Path := (file.1, file.2.swap)

/-! ## Two files -/

section Files

variable (load : Loader) (options : CompareOptions) (key : String)

theorem isIdentical_diff_swap (x y : FrequencyIndex) :
    (y.diff x).isIdentical = (x.diff y).isIdentical := Bool.and_comm _ _

theorem compareRecords_swap (base head : List Record) :
    compareRecords options key head base
      = (compareRecords options key base head).map FileDiff.mirror := by
  unfold compareRecords
  dsimp only
  rw [isIdentical_diff_swap]
  split
  · rfl
  · rfl

/-- The other way round, the head file is loaded first. -/
theorem value?_compareFile_swap (basePath headPath : Path) :
    (compareFile load options key headPath basePath).value?
      = (compareFile load options key basePath headPath).value?.map (Option.map FileDiff.mirror) := by
  unfold compareFile
  rw [Run.value?_between, Run.value?_between]
  unfold loadAndCompare
  rw [Run.value?_bind_comm]
  apply Run.value?_bind_eq_map rfl
  intro baseRecords _
  apply Run.value?_bind_eq_map rfl
  intro headRecords _
  rw [compareRecords_swap]
  rfl

/-- One file after the other, what is found is mirrored, and stays in order. -/
theorem value?_compareShared_swap (files : List (String × Path × Path)) :
    (compareShared load options (files.map swapSides)).value?
      = (compareShared load options files).value?.map (List.map FileDiff.mirror) := by
  induction files with
  | nil => rfl
  | cons file rest ih =>
    obtain ⟨key, basePath, headPath⟩ := file
    show (compareShared load options ((key, headPath, basePath) :: rest.map swapSides)).value? = _
    rw [compareShared, compareShared]
    simp only [Run.value?_bind, Run.value?_pure]
    rw [value?_compareFile_swap load options key basePath headPath, ih]
    cases (compareFile load options key basePath headPath).value? with
    | none => rfl
    | some found =>
      cases (compareShared load options rest).value? with
      | none => rfl
      | some others =>
        show some ((found.map FileDiff.mirror).toList ++ others.map FileDiff.mirror)
          = some ((found.toList ++ others).map FileDiff.mirror)
        rw [List.map_append, Option.toList_map]

end Files

/-! ## Two tables -/

section Tables

variable {base head : FileTable}

theorem sorted_map_swapSides {files : List (String × Path × Path)} (h : Assoc.Sorted files) :
    Assoc.Sorted (files.map swapSides) := List.pairwise_map.mpr h

theorem mem_map_swapSides {files : List (String × Path × Path)} {key : String} {p q : Path} :
    (key, p, q) ∈ files.map swapSides ↔ (key, q, p) ∈ files := by
  rw [List.mem_map]
  constructor
  · rintro ⟨⟨key', q', p'⟩, hmem, heq⟩
    cases heq
    exact hmem
  · intro hmem
    exact ⟨_, hmem, rfl⟩

/-- The files that two tables share are the same from both sides, whichever table is gone through. -/
theorem sharedFiles_swap (hbase : Assoc.Sorted base) (hhead : Assoc.Sorted head) :
    sharedFiles head base = (sharedFiles base head).map swapSides := by
  have hshared := sorted_sharedFiles hhead base
  have hswapped := sorted_map_swapSides (sorted_sharedFiles hbase head)
  apply hshared.ext hswapped
  intro key
  apply Option.ext
  rintro ⟨headPath, basePath⟩
  show Assoc.find? key _ = some _ ↔ Assoc.find? key _ = some _
  rw [← hshared.mem_iff_find?, ← hswapped.mem_iff_find?, mem_map_swapSides, mem_sharedFiles hhead,
    mem_sharedFiles hbase]
  exact And.comm

theorem value?_compareTables_swap (load : Loader) (options : CompareOptions)
    (hbase : Assoc.Sorted base) (hhead : Assoc.Sorted head) :
    (compareTables load options head base).value?
      = (compareTables load options base head).value?.map TreeComparison.mirror := by
  unfold compareTables
  dsimp only
  rw [sharedFiles_swap hbase hhead, Run.value?_bind, Run.value?_bind, value?_compareShared_swap,
    List.length_map]
  cases (compareShared load options (sharedFiles base head)).value? with
  | none => rfl
  | some diffs => rfl

end Tables

/-! ## Two directories -/

section Directories

variable (tree : FileTree) (here : FileTree.Place) (options : CompareOptions)

/-- Below both roots, the walks can be exchanged: neither knows of the other. -/
theorem value?_compareDirectories_swap (baseRoot headRoot : Path) :
    (compareDirectories tree here options headRoot baseRoot).value?
      = (compareDirectories tree here options baseRoot headRoot).value?.map
        TreeComparison.mirror := by
  unfold compareDirectories
  rw [Run.value?_bind_comm]
  apply Run.value?_bind_eq_map rfl
  intro base hbase
  apply Run.value?_bind_eq_map rfl
  intro head hhead
  rw [Run.value?_eq_some_iff] at hbase hhead
  exact value?_compareTables_swap _ _ (CommandLine.sorted_of_discoverFiles hbase)
    (CommandLine.sorted_of_discoverFiles hhead)

/-- The name under which a missing directory is reported does not matter to one that is there. -/
theorem value?_ensureDirectory (label label' : String) (p : Path) :
    (Run.ofExcept (ensureDirectory tree here label' p)).value?
      = (Run.ofExcept (ensureDirectory tree here label p)).value? := by
  unfold ensureDirectory
  split
  · rfl
  · rfl

theorem value?_compareTrees_swap (basePath headPath : Path) :
    (compareTrees tree here options headPath basePath).value?
      = (compareTrees tree here options basePath headPath).value?.map TreeComparison.mirror := by
  unfold compareTrees
  rw [Run.value?_bind_comm]
  apply Run.value?_bind_eq_map (value?_ensureDirectory tree here _ _ basePath)
  intro baseRoot _
  apply Run.value?_bind_eq_map (value?_ensureDirectory tree here _ _ headPath)
  intro headRoot _
  exact value?_compareDirectories_swap tree here options baseRoot headRoot

end Directories

/-! ## Both directions -/

/-- The second comparison is the first one the other way round: it completes in the same cases, and
what it tells is then the same from the other side. -/
structure Run.Mirrors (run' run : Run TreeComparison) : Prop where
  completes : (∃ c', run'.result = .ok c') ↔ ∃ c, run.result = .ok c
  mirror : ∀ c c', run.result = .ok c → run'.result = .ok c' → c' = c.mirror

theorem Run.mirrors_of_value? {run run' : Run TreeComparison}
    (h : run'.value? = run.value?.map TreeComparison.mirror) : run'.Mirrors run := by
  constructor
  · simp only [← value?_eq_some_iff, ← Option.isSome_iff_exists, h, Option.isSome_map]
  · intro c c' hc hc'
    rw [← value?_eq_some_iff] at hc hc'
    rw [h, hc] at hc'
    exact (Option.some.inj hc').symm

/-- Comparing the other way round mirrors the result: two tables of files, in whatever way these are
loaded, and two directories. -/
theorem comparison_mirrors (load : Loader) (options : CompareOptions) {base head : FileTable}
    (hbase : Assoc.Sorted base) (hhead : Assoc.Sorted head) :
    (compareTables load options head base).Mirrors (compareTables load options base head) ∧
      ∀ (tree : FileTree) (here : FileTree.Place) (basePath headPath : Path),
        (compareTrees tree here options headPath basePath).Mirrors
          (compareTrees tree here options basePath headPath) := by
  constructor
  · apply Run.mirrors_of_value?
    exact value?_compareTables_swap load options hbase hhead
  · intro tree here basePath headPath
    apply Run.mirrors_of_value?
    exact value?_compareTrees_swap tree here options basePath headPath

/-- Two tables with one file each of their own and one that they share; one record of that is there
below the base only. -/
theorem comparison_mirrors_of_moved_records :
    let load : Loader := fun p => Run.done (if p = .ofString "b/B" then [.empty] else [])
    let base : FileTable := ["A", "B"].map fun key => (key, .ofString ("b/" ++ key))
    let head : FileTable := ["B", "C"].map fun key => (key, .ofString ("h/" ++ key))
    Assoc.Sorted base ∧ Assoc.Sorted head ∧
      ∃ c, (compareTables load ⟨[]⟩ base head).result = .ok c ∧
        (c.onlyInBase, c.onlyInHead, c.fileDiffs.map fun d => (d.relPath, d.diff.missing))
          = (["A"], ["C"], [("B", ["\x7b\x7d"])]) ∧
        (compareTables load ⟨[]⟩ head base).result = .ok c.mirror := by
  intro load base head
  have hbase : Assoc.Sorted base := by unfold Assoc.Sorted; decide
  have hhead : Assoc.Sorted head := by unfold Assoc.Sorted; decide
  have hvalue : (compareTables load ⟨[]⟩ base head).value?.map
      (fun c => (c.onlyInBase, c.onlyInHead, c.fileDiffs.map fun d => (d.relPath, d.diff.missing)))
        = some (["A"], ["C"], [("B", ["\x7b\x7d"])]) := by
    cbv
  obtain ⟨c, hc, hdiffs⟩ := Option.map_eq_some_iff.mp hvalue
  rw [Run.value?_eq_some_iff] at hc
  obtain ⟨hmirrors, -⟩ := comparison_mirrors load ⟨[]⟩ hbase hhead
  obtain ⟨c', hc'⟩ := hmirrors.completes.mpr ⟨c, hc⟩
  obtain rfl := hmirrors.mirror c c' hc hc'
  exact ⟨hbase, hhead, c, hc, hdiffs, hc'⟩

end ExportDiff
