/-
# ExportDiff.Proofs.Tree.Failing — the failure that a comparison ends with

A comparison of two tables fails exactly where one of the two files of a shared key cannot be loaded.
What it fails with belongs to the first such key, and to the base file if neither of its files loads
(`FirstFailure`). A file below one directory only is never loaded, so what is in it has no influence.

A run of the program that fails prints no report, and hence no verdict. Its exit status tells missing
directories from everything else, and directories are looked for before anything is read, the base
first.
-/

import ExportDiff.Proofs.Tree.Verdict

namespace ExportDiff

/-! ## Two files -/

/-- How the files of a key fail to load: as the base file does, and as the head file does only where
the base file loads. -/
inductive LoadFails (load : Loader) (files : Path × Path) (failure : Failure) : Prop
  | base (h : (load files.1).result = .error failure)
  | head (records : List Record) (hbase : (load files.1).result = .ok records)
      (h : (load files.2).result = .error failure)

section Files

variable {load : Loader} {options : CompareOptions} {key : String} {basePath headPath : Path}
  {files : Path × Path} {failure : Failure}

theorem loads_or_fails (load : Loader) (files : Path × Path) :
    (∃ rs ss, Loads load files rs ss) ∨ ∃ failure, LoadFails load files failure := by
  cases hbase : (load files.1).result with
  | error failure => exact Or.inr ⟨failure, .base hbase⟩
  | ok rs =>
    cases hhead : (load files.2).result with
    | error failure => exact Or.inr ⟨failure, .head rs hbase hhead⟩
    | ok ss => exact Or.inl ⟨rs, ss, hbase, hhead⟩

/-- Some failure is there exactly where one of the two files cannot be loaded. -/
theorem exists_loadFails_iff : (∃ failure, LoadFails load files failure) ↔
    (∃ failure, (load files.1).result = .error failure) ∨
      ∃ failure, (load files.2).result = .error failure := by
  constructor
  · rintro ⟨failure, h | ⟨records, -, h⟩⟩
    · exact Or.inl ⟨failure, h⟩
    · exact Or.inr ⟨failure, h⟩
  · intro h
    rcases loads_or_fails load files with ⟨rs, ss, hbase, hhead⟩ | hfails
    · rw [hbase, hhead] at h
      rcases h with ⟨failure, h⟩ | ⟨failure, h⟩
      · cases h
      · cases h
    · exact hfails

theorem Loads.not_loadFails {rs ss : List Record} (h : Loads load files rs ss) :
    ¬ LoadFails load files failure := by
  rintro (hfail | ⟨records, -, hfail⟩)
  · rw [h.base] at hfail
    cases hfail
  · rw [h.head] at hfail
    cases hfail

/-- Two files fail in one way only. -/
theorem LoadFails.unique {other : Failure} (h : LoadFails load files failure)
    (h' : LoadFails load files other) : failure = other := by
  cases h with
  | base hbase =>
    cases h' with
    | base hbase' => exact Except.error.inj (hbase.symm.trans hbase')
    | head records hok => cases hbase.symm.trans hok
  | head records hok hhead =>
    cases h' with
    | base hbase' => cases hok.symm.trans hbase'
    | head records' hok' hhead' => exact Except.error.inj (hhead.symm.trans hhead')

theorem LoadFails.result_compareFile (h : LoadFails load (basePath, headPath) failure) :
    (compareFile load options key basePath headPath).result = .error failure := by
  unfold compareFile
  rw [Run.result_between]
  unfold loadAndCompare
  cases h with
  | base hbase => exact Run.result_bind_of_error hbase _
  | head records hok hhead =>
    rw [Run.result_bind_of_ok hok]
    exact Run.result_bind_of_error hhead _

end Files

/-! ## The shared files -/

section Shared

variable {load load' : Loader} {options : CompareOptions} {key : String}
  {basePath headPath : Path} {files rest : List (String × Path × Path)} {failure : Failure}

/-- Comparing files fails as the first of them does, and as the others do only where it loads. -/
theorem result_compareShared_cons_eq_error_iff :
    (compareShared load options ((key, basePath, headPath) :: rest)).result = .error failure ↔
      LoadFails load (basePath, headPath) failure ∨
        (∃ rs ss, Loads load (basePath, headPath) rs ss) ∧
          (compareShared load options rest).result = .error failure := by
  rcases loads_or_fails load (basePath, headPath) with ⟨rs, ss, hloads⟩ | ⟨first, hfails⟩
  · rw [or_iff_right hloads.not_loadFails, and_iff_right ⟨rs, ss, hloads⟩]
    cases hresult : (compareShared load options rest).result with
    | ok others =>
      rw [result_compareShared_cons hloads hresult]
      exact iff_of_false nofun nofun
    | error other =>
      rw [compareShared, Run.result_bind_of_ok (result_compareFile hloads),
        Run.result_bind_of_error hresult]
  · have hresult : (compareShared load options ((key, basePath, headPath) :: rest)).result
        = .error first := by
      rw [compareShared]
      exact Run.result_bind_of_error hfails.result_compareFile _
    rw [hresult]
    constructor
    · intro h
      rw [← Except.error.inj h]
      exact Or.inl hfails
    · rintro (h | ⟨⟨rs, ss, hloads⟩, -⟩)
      · rw [hfails.unique h]
      · exact absurd hfails hloads.not_loadFails

/-- Comparing files one after the other fails with the first one that fails; those before it have been
loaded. -/
theorem result_compareShared_eq_error_iff :
    (compareShared load options files).result = .error failure ↔
      ∃ before f after, files = before ++ f :: after ∧
        (∀ g ∈ before, ∃ rs ss, Loads load g.2 rs ss) ∧ LoadFails load f.2 failure := by
  induction files with
  | nil => exact iff_of_false nofun fun ⟨before, f, after, h, _⟩ => by simp at h
  | cons f rest ih =>
    obtain ⟨key, basePath, headPath⟩ := f
    rw [result_compareShared_cons_eq_error_iff, ih]
    constructor
    · rintro (hfails | ⟨hloads, before, f, after, rfl, hbefore, hfails⟩)
      · exact ⟨[], _, rest, rfl, by simp, hfails⟩
      · exact ⟨_ :: before, f, after, rfl, List.forall_mem_cons.mpr ⟨hloads, hbefore⟩, hfails⟩
    · rintro ⟨before, f, after, heq, hbefore, hfails⟩
      cases before with
      | nil =>
        obtain ⟨rfl, rfl⟩ := List.cons.inj heq
        exact Or.inl hfails
      | cons g before =>
        obtain ⟨rfl, rfl⟩ := List.cons.inj heq
        obtain ⟨hloads, hbefore⟩ := List.forall_mem_cons.mp hbefore
        exact Or.inr ⟨hloads, before, f, after, rfl, hbefore, hfails⟩

/-- Comparing files fails at all exactly where one of them does. -/
theorem exists_result_compareShared_eq_error_iff :
    (∃ failure, (compareShared load options files).result = .error failure) ↔
      ∃ f ∈ files, ∃ failure, LoadFails load f.2 failure := by
  induction files with
  | nil => exact iff_of_false nofun fun ⟨f, hf, _⟩ => by simp at hf
  | cons f rest ih =>
    obtain ⟨key, basePath, headPath⟩ := f
    simp only [result_compareShared_cons_eq_error_iff, exists_or, exists_and_left, ih,
      List.mem_cons, exists_eq_or_imp]
    constructor
    · rintro (hfails | ⟨-, hrest⟩)
      · exact Or.inl hfails
      · exact Or.inr hrest
    · rintro (hfails | hrest)
      · exact Or.inl hfails
      · exact (loads_or_fails load (basePath, headPath)).elim (fun h => Or.inr ⟨h, hrest⟩) Or.inl

/-- Only the files of the list are loaded. -/
theorem compareShared_congr
    (h : ∀ f ∈ files, load f.2.1 = load' f.2.1 ∧ load f.2.2 = load' f.2.2) :
    compareShared load options files = compareShared load' options files := by
  induction files with
  | nil => rfl
  | cons f rest ih =>
    obtain ⟨key, basePath, headPath⟩ := f
    obtain ⟨⟨hbase, hhead⟩, hrest⟩ := List.forall_mem_cons.mp h
    have hfile : compareFile load options key basePath headPath
        = compareFile load' options key basePath headPath := by
      unfold compareFile loadAndCompare
      rw [hbase, hhead]
    rw [compareShared, compareShared, hfile, ih hrest]

end Shared

/-! ## Two tables -/

/-- What the first failure of a comparison is: that of a shared key, where the files of every shared
key before it load. -/
def FirstFailure (load : Loader) (base head : FileTable) (failure : Failure) : Prop :=
  ∃ key basePath headPath, Assoc.find? key base = some basePath ∧
    Assoc.find? key head = some headPath ∧ LoadFails load (basePath, headPath) failure ∧
    ∀ earlier ∈ base.keys ∩ head.keys, earlier < key →
      ∃ rs ss, SharedRecords load base head earlier rs ss

/-- Two ways of loading agree on the files of the shared keys. -/
def AgreeOnShared (load load' : Loader) (base head : FileTable) : Prop :=
  ∀ key basePath headPath, Assoc.find? key base = some basePath →
    Assoc.find? key head = some headPath →
    load basePath = load' basePath ∧ load headPath = load' headPath

section Tables

variable {load load' : Loader} {options : CompareOptions} {base head : FileTable}
  {failure : Failure}

theorem result_compareTables_eq_error_iff :
    (compareTables load options base head).result = .error failure ↔
      (compareShared load options (sharedFiles base head)).result = .error failure := by
  unfold compareTables
  cases hshared : (compareShared load options (sharedFiles base head)).result with
  | ok diffs =>
    rw [Run.result_bind_of_ok hshared]
    exact iff_of_false nofun nofun
  | error other =>
    rw [Run.result_bind_of_error hshared, Except.error.injEq, Except.error.injEq]

/-- A comparison fails with its first failure. -/
theorem result_eq_error_iff_firstFailure (hbase : Assoc.Sorted base) :
    (compareTables load options base head).result = .error failure ↔
      FirstFailure load base head failure := by
  have hsorted := sorted_sharedFiles hbase head
  rw [result_compareTables_eq_error_iff, result_compareShared_eq_error_iff]
  constructor
  · rintro ⟨before, ⟨key, basePath, headPath⟩, after, heq, hbefore, hfails⟩
    have hthis : (key, basePath, headPath) ∈ sharedFiles base head :=
      heq ▸ List.mem_append_right before List.mem_cons_self
    obtain ⟨hp, hq⟩ := (mem_sharedFiles hbase).mp hthis
    refine ⟨key, basePath, headPath, hp, hq, hfails, fun earlier hearlier hlt => ?_⟩
    obtain ⟨g, hg, rfl⟩ := List.mem_map.mp ((mem_keys_sharedFiles hbase).mpr hearlier)
    rw [heq] at hg hsorted
    -- a file with an earlier key stands before this one
    have hmem : g ∈ before := by
      rcases List.mem_append.mp hg with hg | hg
      · exact hg
      have hrest := (List.pairwise_append.mp hsorted).2.1
      rcases List.mem_cons.mp hg with rfl | hg
      · exact absurd hlt (Std.lt_irrefl)
      · exact absurd (Std.lt_trans hlt ((List.pairwise_cons.mp hrest).1 g hg)) Std.lt_irrefl
    obtain ⟨rs, ss, hloads⟩ := hbefore g hmem
    have hshared : g ∈ sharedFiles base head := heq ▸ List.mem_append_left _ hmem
    exact ⟨rs, ss, (sharedRecords_iff_exists_mem hbase).mpr ⟨g, hshared, rfl, hloads⟩⟩
  · rintro ⟨key, basePath, headPath, hp, hq, hfails, hearlier⟩
    obtain ⟨before, after, heq⟩ := List.append_of_mem ((mem_sharedFiles hbase).mpr ⟨hp, hq⟩)
    refine ⟨before, _, after, heq, fun g hg => ?_, hfails⟩
    have hshared : g ∈ sharedFiles base head := heq ▸ List.mem_append_left _ hg
    have hlt : g.1 < key := by
      rw [heq] at hsorted
      exact (List.pairwise_append.mp hsorted).2.2 g hg _ List.mem_cons_self
    obtain ⟨rs, ss, hrecords⟩ := hearlier g.1
      ((mem_keys_sharedFiles hbase).mp (List.mem_map_of_mem hshared)) hlt
    exact ⟨rs, ss, hrecords.loads_of_mem hbase hshared⟩

/-- A comparison fails exactly where a file of a shared key cannot be loaded. -/
theorem exists_error_iff_exists_unloadable (hbase : Assoc.Sorted base) :
    (∃ failure, (compareTables load options base head).result = .error failure) ↔
      ∃ key basePath headPath, Assoc.find? key base = some basePath ∧
        Assoc.find? key head = some headPath ∧
        ((∃ failure, (load basePath).result = .error failure) ∨
          ∃ failure, (load headPath).result = .error failure) := by
  simp only [result_compareTables_eq_error_iff, exists_result_compareShared_eq_error_iff]
  constructor
  · rintro ⟨⟨key, basePath, headPath⟩, hf, hfails⟩
    obtain ⟨hp, hq⟩ := (mem_sharedFiles hbase).mp hf
    exact ⟨key, basePath, headPath, hp, hq, exists_loadFails_iff.mp hfails⟩
  · rintro ⟨key, basePath, headPath, hp, hq, hfails⟩
    exact ⟨_, (mem_sharedFiles hbase).mpr ⟨hp, hq⟩, exists_loadFails_iff.mpr hfails⟩

/-- Where a comparison of two tables completes, all shared files have been loaded, and it is exact. -/
theorem loads_and_exact_of_compareTables {c : TreeComparison} (hbase : Assoc.Sorted base)
    (hhead : Assoc.Sorted head) (h : (compareTables load options base head).result = .ok c) :
    (∀ file ∈ sharedFiles base head, ∃ rs ss, Loads load file.2 rs ss) ∧
      c.Exact load options base head := by
  have hloads : ∀ file ∈ sharedFiles base head, ∃ rs ss, Loads load file.2 rs ss := by
    intro file hfile
    rcases loads_or_fails load file.2 with hloads | hfails
    · exact hloads
    · obtain ⟨failure, hfailure⟩ :=
        exists_result_compareShared_eq_error_iff.mpr ⟨file, hfile, hfails⟩
      cases h.symm.trans (result_compareTables_eq_error_iff.mpr hfailure)
  have hshared : ∀ key ∈ base.keys ∩ head.keys,
      ∃ rs ss, SharedRecords load base head key rs ss := by
    intro key hkey
    obtain ⟨file, hfile, rfl⟩ := List.mem_map.mp ((mem_keys_sharedFiles hbase).mpr hkey)
    obtain ⟨rs, ss, hloads⟩ := hloads file hfile
    exact ⟨rs, ss, (sharedRecords_iff_exists_mem hbase).mpr ⟨file, hfile, rfl, hloads⟩⟩
  obtain ⟨c', hc', hexact⟩ := exists_exact_compareTables load options hbase hhead hshared
  obtain rfl := Except.ok.inj (h.symm.trans hc')
  exact ⟨hloads, hexact⟩

/-- Files below one directory only are never loaded. -/
theorem compareTables_congr (hbase : Assoc.Sorted base) (h : AgreeOnShared load load' base head) :
    compareTables load options base head = compareTables load' options base head := by
  have hshared : compareShared load options (sharedFiles base head)
      = compareShared load' options (sharedFiles base head) := by
    refine compareShared_congr fun f hf => ?_
    obtain ⟨key, basePath, headPath⟩ := f
    obtain ⟨hp, hq⟩ := (mem_sharedFiles hbase).mp hf
    exact h key basePath headPath hp hq
  unfold compareTables
  dsimp only
  rw [hshared]

end Tables

/-! ## Where a missing directory is reported -/

theorem Failure.kind_eq_notFound_iff {failure : Failure} :
    failure.kind = .notFound ↔ ∃ label path, failure = .rootNotFound label path := by
  cases failure with
  | rootNotFound label path => exact iff_of_true rfl ⟨label, path, rfl⟩
  | _ => exact iff_of_false nofun nofun

section Kinds

variable {tree : FileTree} {here : FileTree.Place} {p : Path} {failure : Failure}
  {options : CompareOptions} {base head : FileTable}

/-- A directory is missing exactly where looking for it says so; any other failure has another
kind. -/
theorem ensureDirectory_eq_rootNotFound_iff {label label' : String} {path : Path} :
    ensureDirectory tree here label p = .error (.rootNotFound label' path) ↔
      tree.isDirectory here p = false ∧ label = label' ∧ p = path := by
  unfold ensureDirectory
  cases hdir : tree.isDirectory here p with
  | true =>
    rw [if_pos rfl]
    refine iff_of_false ?_ nofun
    cases tree.canonical? here p with
    | ok root => exact nofun
    | error e => exact nofun
  | false =>
    rw [if_neg Bool.false_ne_true, Except.error.injEq, Failure.rootNotFound.injEq]
    exact (and_iff_right rfl).symm

theorem kind_ne_notFound_of_loadRecords (h : (loadRecords tree here p).result = .error failure) :
    failure.kind ≠ .notFound := by
  unfold loadRecords at h
  rw [Run.result_between] at h
  change readRecords tree here p = _ at h
  unfold readRecords parseRecords at h
  split at h
  · cases h
    exact nofun
  · split at h
    all_goals
      cases h
      try exact nofun

theorem kind_ne_notFound_of_discoverFiles {root : Path}
    (h : (discoverFiles tree here root).result = .error failure) : failure.kind ≠ .notFound := by
  unfold discoverFiles at h
  rw [Run.result_between] at h
  unfold findExports at h
  split at h
  · cases h
    exact nofun
  · dsimp only at h
    split at h
    · cases h
    · cases h
      exact nofun

theorem LoadFails.kind_ne_notFound {files : Path × Path}
    (h : LoadFails (loadRecords tree here) files failure) : failure.kind ≠ .notFound := by
  cases h with
  | base h => exact kind_ne_notFound_of_loadRecords h
  | head records hbase h => exact kind_ne_notFound_of_loadRecords h

theorem kind_ne_notFound_of_compareTables
    (h : (compareTables (loadRecords tree here) options base head).result = .error failure) :
    failure.kind ≠ .notFound := by
  rw [result_compareTables_eq_error_iff, result_compareShared_eq_error_iff] at h
  obtain ⟨before, f, after, -, -, hfails⟩ := h
  exact hfails.kind_ne_notFound

/-- No directory is found missing once the files below both are listed. -/
theorem kind_ne_notFound_of_compareDirectories {baseRoot headRoot : Path}
    (h : (compareDirectories tree here options baseRoot headRoot).result = .error failure) :
    failure.kind ≠ .notFound := by
  unfold compareDirectories at h
  cases hbase : (discoverFiles tree here baseRoot).result with
  | error other =>
    rw [Run.result_bind_of_error hbase] at h
    cases h
    exact kind_ne_notFound_of_discoverFiles hbase
  | ok base =>
    rw [Run.result_bind_of_ok hbase] at h
    cases hhead : (discoverFiles tree here headRoot).result with
    | error other =>
      rw [Run.result_bind_of_error hhead] at h
      cases h
      exact kind_ne_notFound_of_discoverFiles hhead
    | ok head =>
      rw [Run.result_bind_of_ok hhead] at h
      exact kind_ne_notFound_of_compareTables h

end Kinds

/-! ## Failed runs of the program -/

namespace CommandLine

/-- What a run leaves behind that fails: no report, and so no verdict, but the wording of the failure.
The exit status tells a missing directory from any other failure. -/
structure Outcome.Failed (outcome : Outcome) (failure : Failure) : Prop where
  output : outcome.output = ""
  no_verdict : ∀ verdict, ¬ Report.EndsWith outcome.output verdict
  missing : failure.kind = .notFound →
    outcome.status = 2 ∧ outcome.errors = failure.message ++ "\n"
  other : failure.kind ≠ .notFound →
    outcome.status = 1 ∧ outcome.errors = "Error: " ++ failure.message ++ "\n"

/-- A directory of a command line is missing, under the name that the report of it has: the base, or
the head where the base is there. -/
inductive Arguments.RootMissing (a : Arguments) (tree : FileTree) (here : FileTree.Place) :
    String → Path → Prop
  | base (h : tree.isDirectory here a.base = false) : RootMissing a tree here "Base" a.base
  | head (root : Path) (hbase : ensureDirectory tree here "Base" a.base = .ok root)
      (h : tree.isDirectory here a.head = false) : RootMissing a tree here "Head" a.head

variable {a : Arguments} {tree : FileTree} {here : FileTree.Place} {failure : Failure}
  {label : String} {path : Path}

theorem not_endsWith_empty (verdict : String) : ¬ Report.EndsWith "" verdict := by
  rintro ⟨front, h⟩
  have hlength := congrArg String.length h
  rw [String.length_append] at hlength
  exact absurd hlength (Nat.ne_of_lt (Nat.succ_pos _))

/-- A run that fails leaves the failure behind and nothing else. -/
theorem failed_execute (h : (a.comparison tree here).result = .error failure)
    (requested : Option String) : (a.execute tree here requested).Failed failure := by
  have houtput : (a.execute tree here requested).output = "" := by
    show outputText a.maxPrinted (a.comparison tree here).result = _
    rw [h]
    rfl
  have hstatus : (a.execute tree here requested).status = exitStatus (.error failure) := by
    show exitStatus (a.comparison tree here).result = _
    rw [h]
  have herrors : (a.execute tree here requested).errors = errorText (.error failure) := by
    show errorText (a.comparison tree here).result = _
    rw [h]
  refine ⟨houtput, fun verdict => houtput ▸ not_endsWith_empty verdict, fun hkind => ?_,
    fun hkind => ?_⟩
  · obtain ⟨label, path, rfl⟩ := Failure.kind_eq_notFound_iff.mp hkind
    exact ⟨hstatus, herrors⟩
  · rw [hstatus, herrors]
    cases failure with
    | rootNotFound label path => exact absurd rfl hkind
    | _ => exact ⟨rfl, rfl⟩

/-- Where a directory is missing, a run does nothing but say so: no operation is started. -/
theorem Arguments.RootMissing.comparison_eq (h : a.RootMissing tree here label path) :
    a.comparison tree here = ⟨.error (.rootNotFound label path), [startingEvent a]⟩ := by
  have hresult : compareTrees tree here ⟨a.ignoredFields⟩ a.base a.head
      = ⟨.error (.rootNotFound label path), []⟩ := by
    unfold compareTrees
    cases h with
    | base h =>
      rw [ensureDirectory_eq_rootNotFound_iff.mpr ⟨h, rfl, rfl⟩]
      rfl
    | head root hbase h =>
      rw [hbase, ensureDirectory_eq_rootNotFound_iff.mpr ⟨h, rfl, rfl⟩]
      rfl
  unfold comparison
  rw [hresult]
  rfl

/-- A run ends with a missing directory exactly where one is missing, the base being looked for
first. -/
theorem result_comparison_eq_rootNotFound_iff :
    (a.comparison tree here).result = .error (.rootNotFound label path) ↔
      a.RootMissing tree here label path := by
  refine ⟨fun h => ?_, fun h => by rw [h.comparison_eq]⟩
  change (compareTrees tree here ⟨a.ignoredFields⟩ a.base a.head).result = _ at h
  unfold compareTrees at h
  cases hbase : ensureDirectory tree here "Base" a.base with
  | error failure =>
    rw [hbase] at h
    obtain rfl := Except.error.inj h
    obtain ⟨hmissing, rfl, rfl⟩ := ensureDirectory_eq_rootNotFound_iff.mp hbase
    exact .base hmissing
  | ok baseRoot =>
    rw [hbase] at h
    cases hhead : ensureDirectory tree here "Head" a.head with
    | error failure =>
      rw [hhead] at h
      obtain rfl := Except.error.inj h
      obtain ⟨hmissing, rfl, rfl⟩ := ensureDirectory_eq_rootNotFound_iff.mp hhead
      exact .head baseRoot hbase hmissing
    | ok headRoot =>
      -- both directories are there, and no other failure is of this kind
      rw [hhead] at h
      exact absurd rfl (kind_ne_notFound_of_compareDirectories h)

/-- A comparison of two tables fails exactly where a file of a shared key cannot be loaded, and it
fails with the first failure, whatever the files below one directory only hold. A run that compares
these tables then prints the failure alone and has status 1. Every failed run prints no report; one
without the base directory, or without the head directory, has status 2 and has started nothing. -/
theorem firstFailure_and_failed_runs (load : Loader) (options : CompareOptions)
    {base head : FileTable} (hbase : Assoc.Sorted base) :
    ((∃ failure, (compareTables load options base head).result = .error failure) ↔
        ∃ key basePath headPath, Assoc.find? key base = some basePath ∧
          Assoc.find? key head = some headPath ∧
          ((∃ failure, (load basePath).result = .error failure) ∨
            ∃ failure, (load headPath).result = .error failure)) ∧
      (∀ failure, (compareTables load options base head).result = .error failure ↔
        FirstFailure load base head failure) ∧
      (∀ load', AgreeOnShared load load' base head →
        compareTables load options base head = compareTables load' options base head) ∧
      ∀ (a : Arguments) (tree : FileTree) (here : FileTree.Place) (requested : Option String),
        (a.Compares tree here base head → load = loadRecords tree here →
          ∀ failure, FirstFailure load base head failure →
            (a.execute tree here requested).Failed failure ∧ failure.kind ≠ .notFound) ∧
        (∀ failure, (a.comparison tree here).result = .error failure →
          (a.execute tree here requested).Failed failure) ∧
        ∀ label path,
          ((a.comparison tree here).result = .error (.rootNotFound label path) ↔
              a.RootMissing tree here label path) ∧
            (a.RootMissing tree here label path →
              (a.execute tree here requested).status = 2 ∧
                (a.comparison tree here).events = [startingEvent a]) := by
  refine ⟨exists_error_iff_exists_unloadable hbase,
    fun failure => result_eq_error_iff_firstFailure hbase,
    fun load' h => compareTables_congr hbase h,
    fun a tree here requested => ⟨?_, fun failure h => failed_execute h requested,
      fun label path => ⟨result_comparison_eq_rootNotFound_iff, fun h => ?_⟩⟩⟩
  · rintro hcompares rfl failure hfirst
    have hresult : (a.comparison tree here).result = .error failure := by
      rw [hcompares.result_comparison]
      exact (result_eq_error_iff_firstFailure hbase).mpr hfirst
    obtain ⟨key, basePath, headPath, -, -, hfails, -⟩ := hfirst
    exact ⟨failed_execute hresult requested, hfails.kind_ne_notFound⟩
  · have hresult : (a.comparison tree here).result = .error (.rootNotFound label path) :=
      result_comparison_eq_rootNotFound_iff.mpr h
    refine ⟨((failed_execute hresult requested).missing rfl).1, ?_⟩
    rw [h.comparison_eq]

/-- Of three shared files the second one fails on both sides, with a failure of its own on each; a
fourth one, below the base only, loads in one case and not in the other. And of two directories on a
command line the second one is not there. -/
theorem firstFailure_of_broken_exports :
    let broken (path : Path) : Failure := .invalidJson path "expected value at line 1 column 1"
    let files (bad : List String) : Loader := fun p =>
      if p ∈ bad.map Path.ofString then Run.fail (broken p) else Run.done [.empty]
    let load := files ["b/B", "h/B", "b/C"]
    let load' := files ["b/B", "h/B", "b/C", "b/D"]
    let base : FileTable := ["A", "B", "C", "D"].map fun key => (key, .ofString ("b/" ++ key))
    let head : FileTable := ["A", "B", "C"].map fun key => (key, .ofString ("h/" ++ key))
    let tree : FileTree := { entries := [(⟨[0x62], by decide⟩, .directory [])] }
    let a : Arguments := ⟨.ofString "b", .ofString "h", [], 20, .development⟩
    Assoc.Sorted base ∧ FirstFailure load base head (broken (.ofString "b/B")) ∧
      (compareTables load ⟨[]⟩ base head).result = .error (broken (.ofString "b/B")) ∧
      AgreeOnShared load load' base head ∧
      compareTables load ⟨[]⟩ base head = compareTables load' ⟨[]⟩ base head ∧
      a.RootMissing tree [] "Head" (.ofString "h") ∧ (a.execute tree [] none).status = 2 ∧
      (a.comparison tree []).events = [startingEvent a] := by
  intro broken files load load' base head tree a
  have hbase : Assoc.Sorted base := by unfold Assoc.Sorted; decide
  have hkeys : base.keys ∩ head.keys = {"A", "B", "C"} := by decide
  have hcases : ∀ key ∈ base.keys ∩ head.keys, key = "A" ∨ key = "B" ∨ key = "C" := by
    rw [hkeys]
    simp
  have hfirst : FirstFailure load base head (broken (.ofString "b/B")) := by
    refine ⟨"B", _, _, rfl, rfl, .base rfl, fun earlier hmem hlt => ?_⟩
    rcases hcases earlier hmem with rfl | rfl | rfl
    · exact ⟨[.empty], [.empty], _, _, rfl, rfl, ⟨rfl, rfl⟩⟩
    · exact absurd hlt (by decide)
    · exact absurd hlt (by decide)
  have hagree : AgreeOnShared load load' base head := by
    intro key basePath headPath hp hq
    have hmem : key ∈ base.keys ∩ head.keys := Finset.mem_inter.mpr
      ⟨FileTable.mem_keys_iff_find?.mpr ⟨_, hp⟩, FileTable.mem_keys_iff_find?.mpr ⟨_, hq⟩⟩
    rcases hcases key hmem with rfl | rfl | rfl
    all_goals
      obtain rfl := Option.some.inj hp
      obtain rfl := Option.some.inj hq
      exact ⟨rfl, rfl⟩
  have hmissing : a.RootMissing tree [] "Head" (.ofString "h") :=
    .head (.ofString "/b") (by cbv) (by cbv)
  obtain ⟨-, hresult, hcongr, hrun⟩ := firstFailure_and_failed_runs load ⟨[]⟩ hbase
  obtain ⟨-, -, hmissingRun⟩ := hrun a tree [] none
  obtain ⟨hstatus, hevents⟩ := (hmissingRun "Head" (.ofString "h")).2 hmissing
  exact ⟨hbase, hfirst, (hresult _).mpr hfirst, hagree, hcongr load' hagree, hmissing, hstatus,
    hevents⟩

end CommandLine

end ExportDiff
