/-
# ExportDiff.Proofs.Tree.Tables — what a comparison of two tables tells

Where both files of every shared key load, the comparison of two tables completes, and it is exact
(`TreeComparison.Exact`): the keys of one table only are told as such, the shared keys are counted,
and a shared key is told as different exactly where the records of its two files cannot be paired off
so that the records of a pair are alike after normalizing. Nothing is told twice, and everything is
told in key order.

An exact comparison has no differences exactly where the tables hold the same files
(`SameFiles`).
-/

import ExportDiff.Proofs.Multiset.Keys
import ExportDiff.Proofs.Tree.Pairing

namespace ExportDiff

/-! ## Loading the files of a key -/

/-- Two files load, with these records. -/
structure Loads (load : Loader) (files : Path × Path) (rs ss : List Record) : Prop where
  base : (load files.1).result = .ok rs
  head : (load files.2).result = .ok ss

/-- A key is in both tables, and its two files load with these records. -/
def SharedRecords (load : Loader) (base head : FileTable) (key : String) (rs ss : List Record) :
    Prop :=
  ∃ basePath headPath, Assoc.find? key base = some basePath ∧
    Assoc.find? key head = some headPath ∧ Loads load (basePath, headPath) rs ss

/-- The same files: the same keys, and under each of them the same records but for what normalizing
leaves out. -/
structure SameFiles (load : Loader) (options : CompareOptions) (base head : FileTable) : Prop where
  keys : base.keys = head.keys
  records : ∀ key rs ss, SharedRecords load base head key rs ss →
    (options.rules key).SameRecords rs ss

section Shared

variable {load : Loader} {options : CompareOptions} {key : String} {basePath headPath : Path}
  {rs ss : List Record}

/-- Two files load with one list of records each. -/
theorem Loads.unique {files : Path × Path} {rs' ss' : List Record} (h : Loads load files rs ss)
    (h' : Loads load files rs' ss') : rs = rs' ∧ ss = ss' :=
  ⟨Except.ok.inj (h.base.symm.trans h'.base), Except.ok.inj (h.head.symm.trans h'.head)⟩

theorem result_compareFile (h : Loads load (basePath, headPath) rs ss) :
    (compareFile load options key basePath headPath).result
      = .ok (compareRecords options key rs ss) := by
  unfold compareFile
  rw [Run.result_between]
  unfold loadAndCompare
  rw [Run.result_bind_of_ok h.base, Run.result_bind_of_ok h.head]
  rfl

theorem relPath_of_compareRecords {d : FileDiff} (h : compareRecords options key rs ss = some d) :
    d.relPath = key := by
  have hsome := compareRecords_eq_some (h ▸ Option.some_ne_none d)
  rw [h] at hsome
  rw [Option.some.inj hsome]

/-! ## Comparing the shared files -/

/-- Comparing the first of some files puts its differences, if any, before those of the others. -/
theorem result_compareShared_cons {rest : List (String × Path × Path)} {others : List FileDiff}
    (hfirst : Loads load (basePath, headPath) rs ss)
    (hrest : (compareShared load options rest).result = .ok others) :
    (compareShared load options ((key, basePath, headPath) :: rest)).result
      = .ok ((compareRecords options key rs ss).toList ++ others) := by
  rw [compareShared, Run.result_bind_of_ok (result_compareFile hfirst),
    Run.result_bind_of_ok hrest]
  rfl

/-- Where all files load, they are all compared: a file with differences is told with them, and the
order is that of the files. -/
theorem result_compareShared (load : Loader) (options : CompareOptions)
    (files : List (String × Path × Path)) (hload : ∀ f ∈ files, ∃ rs ss, Loads load f.2 rs ss) :
    ∃ diffs, (compareShared load options files).result = .ok diffs ∧
      (diffs.map (·.relPath)).Sublist (files.map (·.1)) ∧
      ∀ d, d ∈ diffs ↔ ∃ f ∈ files, ∃ rs ss, Loads load f.2 rs ss ∧
        compareRecords options f.1 rs ss = some d := by
  induction files with
  | nil => exact ⟨[], rfl, List.Sublist.refl [], fun d => by simp⟩
  | cons f rest ih =>
    obtain ⟨key, basePath, headPath⟩ := f
    obtain ⟨others, hothers, hsub, hmem⟩ := ih fun f hf => hload f (List.mem_cons_of_mem _ hf)
    obtain ⟨rs, ss, hfirst⟩ := hload _ List.mem_cons_self
    refine ⟨_, result_compareShared_cons hfirst hothers, ?_, ?_⟩
    · cases hd : compareRecords options key rs ss with
      | none => exact hsub.cons key
      | some d =>
        rw [List.map_cons, ← relPath_of_compareRecords hd]
        exact hsub.cons_cons d.relPath
    · intro d
      rw [List.mem_append, Option.mem_toList, hmem d]
      constructor
      · rintro (hd | ⟨f, hf, hd⟩)
        · exact ⟨_, List.mem_cons_self, rs, ss, hfirst, hd⟩
        · exact ⟨f, List.mem_cons_of_mem _ hf, hd⟩
      · rintro ⟨f, hf, rs', ss', hloads, hd⟩
        rcases List.mem_cons.mp hf with rfl | hf
        · obtain ⟨rfl, rfl⟩ := hfirst.unique hloads
          exact Or.inl hd
        · exact Or.inr ⟨f, hf, rs', ss', hloads, hd⟩

end Shared

/-! ## Exact comparisons -/

/-- A comparison that tells exactly how the files of two tables differ, everything once and in key
order. -/
structure TreeComparison.Exact (c : TreeComparison) (load : Loader) (options : CompareOptions)
    (base head : FileTable) : Prop where
  onlyInBase : c.onlyInBase.Pairwise (· < ·)
  mem_onlyInBase : ∀ key, key ∈ c.onlyInBase ↔ key ∈ base.keys ∧ key ∉ head.keys
  onlyInHead : c.onlyInHead.Pairwise (· < ·)
  mem_onlyInHead : ∀ key, key ∈ c.onlyInHead ↔ key ∈ head.keys ∧ key ∉ base.keys
  filesCompared : c.filesCompared = (base.keys ∩ head.keys).card
  fileDiffs : (c.fileDiffs.map (·.relPath)).Pairwise (· < ·)
  mem_fileDiffs : ∀ key, key ∈ c.fileDiffs.map (·.relPath) ↔
    ∃ rs ss, SharedRecords load base head key rs ss ∧
      ¬ (options.rules key).SameRecords rs ss
  compared : ∀ d ∈ c.fileDiffs, ∃ rs ss, SharedRecords load base head d.relPath rs ss ∧
    compareRecords options d.relPath rs ss = some d

/-- What a comparison tells of the files of a key. -/
def TreeComparison.fileDiff? (c : TreeComparison) (key : String) : Option FileDiff :=
  c.fileDiffs.find? (·.relPath = key)

section Tables

variable {load : Loader} {options : CompareOptions} {base head : FileTable} {c : TreeComparison}
  {key : String} {rs ss : List Record} {diffs : List FileDiff}

/-- The records of a shared key are those of the pair of files listed for it. -/
theorem sharedRecords_iff_exists_mem (hbase : Assoc.Sorted base) :
    SharedRecords load base head key rs ss ↔
      ∃ f ∈ sharedFiles base head, f.1 = key ∧ Loads load f.2 rs ss := by
  constructor
  · rintro ⟨basePath, headPath, hp, hq, hloads⟩
    exact ⟨_, (mem_sharedFiles hbase).mpr ⟨hp, hq⟩, rfl, hloads⟩
  · rintro ⟨⟨key, basePath, headPath⟩, hf, rfl, hloads⟩
    obtain ⟨hp, hq⟩ := (mem_sharedFiles hbase).mp hf
    exact ⟨basePath, headPath, hp, hq, hloads⟩

/-- A shared key has the records of its two files, and no others. -/
theorem SharedRecords.unique {rs' ss' : List Record} (h : SharedRecords load base head key rs ss)
    (h' : SharedRecords load base head key rs' ss') : rs = rs' ∧ ss = ss' := by
  obtain ⟨p, q, hp, hq, hloads⟩ := h
  obtain ⟨p', q', hp', hq', hloads'⟩ := h'
  obtain rfl := Option.some.inj (hp.symm.trans hp')
  obtain rfl := Option.some.inj (hq.symm.trans hq')
  exact hloads.unique hloads'

/-- The records of a shared key are those that the pair listed for it loads with. -/
theorem SharedRecords.loads_of_mem (hbase : Assoc.Sorted base) {f : String × Path × Path}
    (h : SharedRecords load base head f.1 rs ss) (hf : f ∈ sharedFiles base head) :
    Loads load f.2 rs ss := by
  obtain ⟨key, path, other⟩ := f
  obtain ⟨basePath, headPath, hp, hq, hloads⟩ := h
  obtain ⟨hp', hq'⟩ := (mem_sharedFiles hbase).mp hf
  -- a key has one path in each table
  rw [Option.some.inj (hp'.symm.trans hp), Option.some.inj (hq'.symm.trans hq)]
  exact hloads

/-- If the files of every shared key load, every pair that is listed loads. -/
theorem exists_loads_of_mem_sharedFiles (hbase : Assoc.Sorted base)
    (hload : ∀ key ∈ base.keys ∩ head.keys, ∃ rs ss, SharedRecords load base head key rs ss)
    {f : String × Path × Path} (hf : f ∈ sharedFiles base head) :
    ∃ rs ss, Loads load f.2 rs ss := by
  have hkey := (mem_keys_sharedFiles hbase).mp (List.mem_map_of_mem hf)
  obtain ⟨rs, ss, hshared⟩ := hload f.1 hkey
  exact ⟨rs, ss, hshared.loads_of_mem hbase hf⟩

/-- If exactly the files with differences are told, then exactly the keys whose records are not the
same. -/
theorem mem_relPaths_iff
    (hdiffs : ∀ d, d ∈ diffs ↔ ∃ rs ss, SharedRecords load base head d.relPath rs ss ∧
      compareRecords options d.relPath rs ss = some d) (key : String) :
    key ∈ diffs.map (·.relPath) ↔ ∃ rs ss, SharedRecords load base head key rs ss ∧
      ¬ (options.rules key).SameRecords rs ss := by
  simp only [← compareRecords_eq_none_iff_sameRecords]
  rw [List.mem_map]
  constructor
  · rintro ⟨d, hd, rfl⟩
    obtain ⟨rs, ss, hshared, hsome⟩ := (hdiffs d).mp hd
    exact ⟨rs, ss, hshared, hsome ▸ Option.some_ne_none d⟩
  · rintro ⟨rs, ss, hshared, hne⟩
    obtain ⟨d, hsome⟩ := Option.ne_none_iff_exists'.mp hne
    obtain rfl := relPath_of_compareRecords hsome
    exact ⟨d, (hdiffs d).mpr ⟨rs, ss, hshared, hsome⟩, rfl⟩

/-- Where the two files of every shared key load, the comparison completes and is exact. -/
theorem exists_exact_compareTables (load : Loader) (options : CompareOptions)
    (hbase : Assoc.Sorted base) (hhead : Assoc.Sorted head)
    (hload : ∀ key ∈ base.keys ∩ head.keys, ∃ rs ss, SharedRecords load base head key rs ss) :
    ∃ c, (compareTables load options base head).result = .ok c ∧
      c.Exact load options base head := by
  obtain ⟨diffs, hdiffs, hsub, hmem⟩ := result_compareShared load options
    (sharedFiles base head) fun f => exists_loads_of_mem_sharedFiles hbase hload
  have hcompared : ∀ d, d ∈ diffs ↔ ∃ rs ss, SharedRecords load base head d.relPath rs ss ∧
      compareRecords options d.relPath rs ss = some d := by
    intro d
    simp only [hmem d, sharedRecords_iff_exists_mem hbase]
    constructor
    · rintro ⟨f, hf, rs, ss, hloads, hd⟩
      have hkey := relPath_of_compareRecords hd
      exact ⟨rs, ss, ⟨f, hf, hkey.symm, hloads⟩, hkey ▸ hd⟩
    · rintro ⟨rs, ss, ⟨f, hf, hkey, hloads⟩, hd⟩
      exact ⟨f, hf, rs, ss, hloads, hkey ▸ hd⟩
  refine ⟨⟨keysOnlyIn base head, keysOnlyIn head base, diffs, (sharedFiles base head).length⟩,
    ?_, ?_⟩
  · unfold compareTables
    exact Run.result_bind_of_ok hdiffs _
  · exact {
      onlyInBase := pairwise_keysOnlyIn hbase
      mem_onlyInBase := fun key => mem_keysOnlyIn
      onlyInHead := pairwise_keysOnlyIn hhead
      mem_onlyInHead := fun key => mem_keysOnlyIn
      filesCompared := length_sharedFiles hbase
      fileDiffs := (sorted_sharedFiles hbase head).pairwise_keys.sublist hsub
      mem_fileDiffs := mem_relPaths_iff hcompared
      compared := fun d => (hcompared d).mp }

/-- A comparison without differences tells of none. -/
theorem hasDifferences_eq_false_iff :
    c.hasDifferences = false ↔ c.onlyInBase = [] ∧ c.onlyInHead = [] ∧ c.fileDiffs = [] := by
  unfold TreeComparison.hasDifferences
  simp [and_assoc]

/-- An exact comparison has no differences exactly where both tables hold the same files. -/
theorem TreeComparison.Exact.hasDifferences_eq_false_iff_sameFiles
    (h : c.Exact load options base head) :
    c.hasDifferences = false ↔ SameFiles load options base head := by
  have hbase : c.onlyInBase = [] ↔ base.keys ⊆ head.keys := by
    rw [List.eq_nil_iff_forall_not_mem]
    simp only [h.mem_onlyInBase, not_and, not_not]
    rfl
  have hhead : c.onlyInHead = [] ↔ head.keys ⊆ base.keys := by
    rw [List.eq_nil_iff_forall_not_mem]
    simp only [h.mem_onlyInHead, not_and, not_not]
    rfl
  have hdiffs : c.fileDiffs = [] ↔ ∀ key rs ss, SharedRecords load base head key rs ss →
      (options.rules key).SameRecords rs ss := by
    have hnil : c.fileDiffs = [] ↔ c.fileDiffs.map (·.relPath) = [] := List.map_eq_nil_iff.symm
    rw [hnil, List.eq_nil_iff_forall_not_mem]
    simp only [h.mem_fileDiffs, not_exists, not_and, not_not]
  rw [hasDifferences_eq_false_iff, hbase, hhead, hdiffs]
  constructor
  · rintro ⟨hsub, hsup, hrecords⟩
    exact ⟨Finset.Subset.antisymm hsub hsup, hrecords⟩
  · rintro ⟨hkeys, hrecords⟩
    exact ⟨hkeys ▸ Finset.Subset.refl _, hkeys ▸ Finset.Subset.refl _, hrecords⟩

end Tables

end ExportDiff
