/-
# ExportDiff.Proofs.FileTree.Following — an entry is what its path leads to

A walk has an entry in hand with the names that lead to it from its root: a file is a file, and a link is
followed from the directory that holds it. The system, asked for the path of the entry, follows it from
the beginning. Both come to the same (`isFile_entryPath`), but for a path that is too long, and for a
directory on the way that may not be entered.

Steps are taken one after the other, so where some lead to a directory, further ones go on from there
(`walk_append`), and the path of an entry takes the steps of the root and then the names
(`exists_front_moves`). A trail is what the tree says of the names on it, whichever links have led to it.
-/

import Mathlib.Data.List.Basic
import ExportDiff.Proofs.FileTree.Components
import ExportDiff.Proofs.FileTree.Descendants

namespace ExportDiff

open FileTree (Entries Name Node Place Trail Move)

namespace FileTree

/-! ## Trails that the tree has -/

section Trails

variable {tree : FileTree} {trail : Trail} {place : Place} {name : Name} {entries : Entries}

/-- A trail as the tree has it: the directories on it are those that its names lead to. -/
def Trail.Found (tree : FileTree) (trail : Trail) : Prop := tree.trailTo trail.place = trail

theorem trailFrom_append (p q : Place) :
    tree.trailFrom trail (p ++ q) = tree.trailFrom (tree.trailFrom trail p) q := by
  induction p generalizing trail with
  | nil => rfl
  | cons name p ih =>
    rw [List.cons_append, trailFrom, trailFrom]
    split
    · exact ih
    · exact ih

theorem Trail.place_cons (step : Name × Entries) (trail : Trail) :
    Trail.place (step :: trail) = trail.place ++ [step.1] := by
  unfold Trail.place
  rw [List.map_cons, List.reverse_cons]

theorem place_trailFrom (place : Place) :
    (tree.trailFrom trail place).place = trail.place ++ place := by
  induction place generalizing trail with
  | nil => exact (List.append_nil _).symm
  | cons name place ih =>
    rw [trailFrom]
    split
    · rw [ih, Trail.place_cons, List.append_assoc, List.singleton_append]
    · rw [ih, Trail.place_cons, List.append_assoc, List.singleton_append]

theorem Trail.found_nil : Trail.Found tree [] := rfl

theorem found_trailTo (place : Place) : Trail.Found tree (tree.trailTo place) := by
  unfold Trail.Found
  have hplace : (tree.trailTo place).place = place := place_trailFrom place
  rw [hplace]

theorem trailTo_concat (place : Place) (name : Name) :
    tree.trailTo (place ++ [name]) = tree.trailFrom (tree.trailTo place) [name] :=
  trailFrom_append place [name]

theorem Trail.Found.tail (h : trail.Found tree) : Trail.Found tree trail.tail := by
  cases trail with
  | nil => exact Trail.found_nil
  | cons step trail =>
    unfold Trail.Found at h
    rw [Trail.place_cons, trailTo_concat, trailFrom] at h
    show tree.trailTo (Trail.place trail) = trail
    split at h
    · exact (List.cons.inj h).2
    · exact (List.cons.inj h).2

theorem Trail.Found.cons (h : trail.Found tree)
    (hfind : Assoc.find? name (tree.entriesAt trail) = some (.directory entries)) :
    Trail.Found tree ((name, entries) :: trail) := by
  unfold Trail.Found at h ⊢
  rw [Trail.place_cons, trailTo_concat, h, trailFrom, hfind]
  rfl

end Trails

/-! ## Steps behind steps -/

section Steps

variable {tree : FileTree} {trail : Trail} {place : Place} {entries : Entries} {links left : Nat}
  {steps rest : List Move} {name : Name} {content : ByteArray} {target : Path}

theorem walk_halt : tree.walk .direct true links trail (.halt :: rest)
    = tree.walk .direct true links trail rest := by
  rw [walk]

theorem walk_stay : tree.walk .direct true links trail (.stay :: rest)
    = if tree.mayTurn .direct trail then tree.walk .direct true links trail rest
      else .error .denied := by
  rw [walk]

theorem walk_up : tree.walk .direct true links trail (.up :: rest)
    = if tree.mayTurn .direct trail then tree.walk .direct true links trail.tail rest
      else .error .denied := by
  rw [walk]

/-- In the directory reached so far, a name is asked for where the directory may be entered and the name
is not too long. -/
theorem askFault?_direct (tree : FileTree) (trail : Trail) (name : Name) :
    tree.askFault? .direct trail name
      = if tree.mayEnter trail.place = false then some .denied
        else if longestName < name.bytes.length then some .nameTooLong
        else none := rfl

theorem askFault?_eq_none (henter : tree.mayEnter trail.place = true)
    (hname : name.bytes.length ≤ longestName) : tree.askFault? .direct trail name = none := by
  rw [askFault?_direct, if_neg (by rw [henter]; exact nofun), if_neg (Nat.not_lt.mpr hname)]

theorem walk_fault {e : PathError} (hask : tree.askFault? .direct trail name = some e) :
    tree.walk .direct true links trail (.down name :: rest) = .error e := by
  rw [walk, hask]

theorem walk_directory (hask : tree.askFault? .direct trail name = none)
    (hfind : Assoc.find? name (tree.entriesAt trail) = some (.directory entries)) :
    tree.walk .direct true links trail (.down name :: rest)
      = tree.walk .direct true links ((name, entries) :: trail) rest := by
  rw [walk, hask, hfind]
  rfl

theorem walk_file (hask : tree.askFault? .direct trail name = none)
    (hfind : Assoc.find? name (tree.entriesAt trail) = some (.file content)) :
    tree.walk .direct true links trail (.down name :: rest)
      = if rest.isEmpty then .ok (.present (trail.place ++ [name]) (.file content), links)
        else .error .notDirectory := by
  rw [walk, hask, hfind]

theorem walk_link (hask : tree.askFault? .direct trail name = none)
    (hfind : Assoc.find? name (tree.entriesAt trail) = some (.link target)) :
    tree.walk .direct true (links + 1) trail (.down name :: rest)
      = tree.walk .direct true links (if target.isAbsolute then [] else trail)
          (moves target ++ rest) := by
  rw [walk, hask, hfind]
  simp

theorem walk_link_zero (hask : tree.askFault? .direct trail name = none)
    (hfind : Assoc.find? name (tree.entriesAt trail) = some (.link target)) :
    tree.walk .direct true 0 trail (.down name :: rest) = .error .tooManyLinks := by
  rw [walk, hask, hfind]
  simp

theorem walk_absent (hask : tree.askFault? .direct trail name = none)
    (hfind : Assoc.find? name (tree.entriesAt trail) = none) (hrest : rest ≠ []) :
    tree.walk .direct true links trail (.down name :: rest) = .error .notFound := by
  rw [walk, hask, hfind]
  exact if_neg (mt List.isEmpty_iff.mp hrest)

/-- A separator matters at the end only. -/
theorem walk_append_halt {more : List Move} (hmore : more ≠ []) :
    tree.walk .direct true links trail (steps ++ .halt :: more)
      = tree.walk .direct true links trail (steps ++ more) := by
  generalize hlookup : Lookup.direct = lookup
  generalize hfollow : true = follow
  fun_induction FileTree.walk tree lookup follow links trail steps with
  | case1 links trail =>
    subst hlookup hfollow
    exact walk_halt
  | case2 links trail rest ih =>
    subst hlookup hfollow
    rw [List.cons_append, walk_halt, ih, List.cons_append, walk_halt]
  | case3 links trail rest hturn ih =>
    subst hlookup hfollow
    rw [List.cons_append, walk_stay, ih, List.cons_append, walk_stay]
  | case4 links trail rest hturn =>
    subst hlookup hfollow
    rw [List.cons_append, walk_stay, if_neg hturn, List.cons_append, walk_stay, if_neg hturn]
  | case5 links trail rest hturn ih =>
    subst hlookup hfollow
    rw [List.cons_append, walk_up, ih, List.cons_append, walk_up]
  | case6 links trail rest hturn =>
    subst hlookup hfollow
    rw [List.cons_append, walk_up, if_neg hturn, List.cons_append, walk_up, if_neg hturn]
  | case7 links trail name rest e hask =>
    subst hlookup hfollow
    rw [List.cons_append, walk_fault hask, List.cons_append, walk_fault hask]
  | case8 links trail name rest hask hfind hrest | case9 links trail name rest hask hfind hrest =>
    subst hlookup hfollow
    rw [List.cons_append, walk_absent hask hfind (by simp), List.cons_append,
      walk_absent hask hfind (by simp [hmore])]
  | case10 links trail name rest hask inner hfind hrefused =>
    subst hlookup
    cases hrefused
  | case11 links trail name rest hask inner hfind hasked ih =>
    subst hlookup hfollow
    rw [List.cons_append, walk_directory hask hfind, ih, List.cons_append,
      walk_directory hask hfind]
  | case16 trail name rest hask target hfind hrest links ih =>
    subst hlookup hfollow
    rw [List.cons_append, walk_link hask hfind, ← List.append_assoc, List.cons_append,
      walk_link hask hfind, ← List.append_assoc]
    exact ih
  | case12 links trail name rest hask content hfind hrest
  | case13 links trail name rest hask content hfind hrest =>
    subst hlookup hfollow
    rw [List.cons_append, walk_file hask hfind, List.cons_append, walk_file hask hfind]
    simp [hmore]
  | case14 links trail name rest hask target hfind hrest =>
    subst hfollow
    cases hrest.2
  | case15 trail name rest hask target hfind hrest =>
    subst hlookup hfollow
    rw [List.cons_append, walk_link_zero hask hfind, List.cons_append, walk_link_zero hask hfind]

/-- Where steps lead to a directory, further steps go on from there. -/
theorem walk_append (hfound : trail.Found tree)
    (h : tree.walk .direct true links trail steps = .ok (.present place (.directory entries), left))
    (more : List Move) :
    tree.walk .direct true links trail (steps ++ more)
        = tree.walk .direct true left (tree.trailTo place) more ∧
      tree.entriesAt (tree.trailTo place) = entries := by
  generalize hlookup : Lookup.direct = lookup at h
  generalize hfollow : true = follow at h
  fun_induction FileTree.walk tree lookup follow links trail steps with
  | case1 links trail =>
    cases h
    rw [hfound]
    exact ⟨rfl, rfl⟩
  | case2 links trail rest ih =>
    subst hlookup hfollow
    rw [List.cons_append, walk_halt]
    exact ih hfound h
  | case3 links trail rest hturn ih =>
    subst hlookup hfollow
    rw [List.cons_append, walk_stay, if_pos hturn]
    exact ih hfound h
  | case5 links trail rest hturn ih =>
    subst hlookup hfollow
    rw [List.cons_append, walk_up, if_pos hturn]
    exact ih hfound.tail h
  | case11 links trail name rest hask inner hfind hasked ih =>
    subst hlookup hfollow
    rw [List.cons_append, walk_directory hask hfind]
    exact ih (hfound.cons hfind) h
  | case12 links trail name rest hask content hfind hrest => cases h
  | case14 links trail name rest hask target hfind hrest => cases h
  | case16 trail name rest hask target hfind hrest links ih =>
    subst hlookup hfollow
    rw [List.cons_append, walk_link hask hfind, ← List.append_assoc]
    refine ih ?_ h
    split
    · exact Trail.found_nil
    · exact hfound
  | _ => cases h

end Steps

/-! ## Names as steps -/

/-- Whether a path has been followed to a file. -/
def reachesFile : Except PathError (Target × Nat) → Bool
  | .ok (.present _ (.file _), _) => true
  | _ => false

section Names

variable {tree : FileTree} {trail : Trail} {here start names : Place} {entries : Entries} {x : Node}
  {links : Nat} {root : Path}

theorem isFile_eq_reachesFile (tree : FileTree) (here : Place) (p : Path) :
    tree.isFile here p = reachesFile (tree.resolve true here p) := by
  unfold isFile find?
  rcases tree.resolve true here p with _ | ⟨⟨_, _ | _ | _⟩ | _, _⟩ <;> rfl

theorem leadsToFile_cons {name : Name} (hnames : names ≠ []) (x : Node) :
    leadsToFile tree (start ++ [name]) links names x
      = leadsToFile tree start links (name :: names) x := by
  unfold leadsToFile
  rw [List.dropLast_cons_of_ne_nil hnames, List.append_assoc, List.singleton_append]

/-- From the directory at the end of a trail, the system gets to a file by names where every directory on
the way may be entered and the names lead to one. -/
theorem reachesFile_walk_names (links : Nat) (hfound : trail.Found tree)
    (hshort : ∀ name ∈ names, name.bytes.length ≤ longestName)
    (hat : (Node.directory (tree.entriesAt trail)).at? names = some x) :
    reachesFile (tree.walk .direct true links trail (names.map .down))
      = (tree.mayDescend trail.place names && leadsToFile tree trail.place links names x) := by
  induction names generalizing trail with
  | nil =>
    obtain rfl := Option.some.inj hat
    rw [List.map_nil, walk]
    rfl
  | cons name names ih =>
    rw [List.forall_mem_cons] at hshort
    obtain ⟨inner, hfind, hat⟩ := Option.bind_eq_some_iff.mp hat
    rw [List.map_cons, mayDescend]
    cases henter : tree.mayEnter trail.place with
    | false =>
      have hask : tree.askFault? .direct trail name = some .denied := by
        rw [askFault?_direct, if_pos henter]
      rw [walk_fault hask]
      rfl
    | true =>
      have hask := askFault?_eq_none henter hshort.1
      rw [Bool.true_and]
      cases inner with
      | directory entries =>
        rw [walk_directory hask hfind, ih (hfound.cons hfind) hshort.2 hat, Trail.place_cons]
        by_cases hnames : names = []
        · subst hnames
          obtain rfl := Option.some.inj hat
          rfl
        · rw [leadsToFile_cons hnames x]
      | file content =>
        cases names with
        | nil =>
          obtain rfl := Option.some.inj hat
          rw [List.map_nil, walk_file hask hfind]
          rfl
        | cons next names => cases hat
      | link target =>
        cases names with
        | nil =>
          obtain rfl := Option.some.inj hat
          cases links with
          | zero =>
            rw [walk_link_zero hask hfind]
            rfl
          | succ links =>
            -- a link is followed from the directory that holds it, and that is where the trail led
            have htrail : tree.trailTo (trail.place ++ [name].dropLast) = trail := by
              rw [List.dropLast_singleton, List.append_nil]
              exact hfound
            rw [List.map_nil, walk_link hask hfind, List.append_nil, leadsToFile, htrail]
            rfl
        | cons next names => cases hat

/-! ## The path of an entry -/

theorem moves_eq (p : Path) :
    moves p = (p.bytes.splitOn Path.slash).filterMap Move.ofPart?
      ++ if 1 < (p.bytes.splitOn Path.slash).length ∧ (p.bytes.splitOn Path.slash).getLast? = some []
        then [.halt] else [] := by
  unfold moves
  rw [Path.splitAtSlash_eq_splitOn]

theorem ofPart?_name (name : Name) : Move.ofPart? name.bytes = some (.down name) := by
  unfold Move.ofPart? Name.ofBytes?
  rw [if_neg name.bytes_ne_current, if_neg name.bytes_ne_parent, dif_pos name.valid]
  rfl

theorem filterMap_ofPart?_names (names : Place) :
    (names.map (·.bytes)).filterMap Move.ofPart? = names.map .down := by
  rw [List.filterMap_map]
  exact List.filterMap_eq_map_iff_forall_eq_some.mpr fun name _ => ofPart?_name name

/-- The steps of the path of an entry are those of the root and the names. A separator at the end of the
root does not remain at the end. -/
theorem exists_front_moves (hroot : root.bytes ≠ []) (hnames : names ≠ []) :
    ∃ front, (moves root = front ∨ moves root = front ++ [.halt]) ∧
      moves (entryPath root names) = front ++ names.map .down := by
  obtain ⟨front, hfront, hjoined⟩ := Path.exists_front_join hroot (relativePath names).bytes
  refine ⟨(front.splitOn Path.slash).filterMap Move.ofPart?, ?_, ?_⟩
  · rcases hfront with hfront | hfront
    · rw [moves_eq, hfront]
      split
      · exact Or.inr rfl
      · exact Or.inl (List.append_nil _)
    · refine Or.inr ?_
      have hparts := List.length_pos_iff.mpr (List.splitOn_ne_nil Path.slash front)
      have hempty : [([] : List UInt8)].filterMap Move.ofPart? = [] := rfl
      rw [moves_eq, hfront, List.splitOn_append_cons_self, List.splitOn_nil, List.filterMap_append,
        hempty, List.append_nil, if_pos]
      refine ⟨?_, List.getLast?_concat⟩
      rw [List.length_append, List.length_singleton]
      exact Nat.succ_lt_succ hparts
  · have hlast : (names.map (·.bytes)).getLast? ≠ some [] := by
      intro h
      obtain ⟨name, -, hname⟩ := List.mem_map.mp (List.mem_of_getLast? h)
      exact name.bytes_ne_nil hname
    rw [moves_eq, entryPath_eq_join root hnames, hjoined, List.splitOn_append_cons_self,
      splitOn_relativePath hnames, List.filterMap_append, filterMap_ofPart?_names, if_neg,
      List.append_nil]
    rintro ⟨-, h⟩
    rw [List.getLast?_append_of_ne_nil _ (mt List.map_eq_nil_iff.mp hnames)] at h
    exact hlast h

theorem zero_not_mem_relativePath (names : Place) : 0 ∉ (relativePath names).bytes := by
  intro h
  rcases eq_or_exists_mem_of_mem_intercalate h with h | ⟨part, hpart, hmem⟩
  · exact absurd h (by decide)
  · obtain ⟨name, -, rfl⟩ := List.mem_map.mp hpart
    exact name.zero_not_mem hmem

theorem textFault?_of_not_mem {p : Path} (hzero : 0 ∉ p.bytes) (hne : p.bytes ≠ []) :
    textFault? p = if isTooLong p then some .nameTooLong else none := by
  unfold textFault?
  rw [if_neg (mt List.contains_iff_mem.mp hzero), if_neg hne]

theorem not_mem_of_textFault? {p : Path} (h : textFault? p = none) : 0 ∉ p.bytes ∧ p.bytes ≠ [] := by
  unfold textFault? at h
  split at h
  · cases h
  · next hzero =>
    split at h
    · cases h
    · next hne => exact ⟨mt List.contains_iff_mem.mpr hzero, hne⟩

/-- Below a root that the system takes, the path of an entry can only be too long. -/
theorem textFault?_entryPath (hroot : textFault? root = none) (hnames : names ≠ []) :
    textFault? (entryPath root names)
      = if isTooLong (entryPath root names) then some .nameTooLong else none := by
  obtain ⟨hzero, hne⟩ := not_mem_of_textFault? hroot
  obtain ⟨front, hfront, hjoined⟩ := Path.exists_front_join hne (relativePath names).bytes
  have hfrontZero : 0 ∉ front := by
    rcases hfront with h | h
    · exact h ▸ hzero
    · rw [h] at hzero
      exact mt (List.mem_append_left _) hzero
  rw [← entryPath_eq_join root hnames] at hjoined
  apply textFault?_of_not_mem
  · rw [hjoined, List.mem_append, List.mem_cons, not_or, not_or]
    exact ⟨hfrontZero, by decide, zero_not_mem_relativePath names⟩
  · rw [hjoined]
    exact List.append_ne_nil_of_right_ne_nil _ (List.cons_ne_nil _ _)

/-- The path of an entry below a directory is followed to the directory, and from there by the names. -/
theorem resolve_entryPath
    (hroot : tree.resolve true here root = .ok (.present start (.directory entries), links))
    (hnames : names ≠ []) :
    tree.entriesAt (tree.trailTo start) = entries ∧
      tree.resolve true here (entryPath root names)
        = if isTooLong (entryPath root names) then .error .nameTooLong
          else tree.walk .direct true links (tree.trailTo start) (names.map .down) := by
  unfold resolve resolveBy at hroot ⊢
  cases hfault : textFault? root with
  | some e =>
    rw [hfault] at hroot
    cases hroot
  | none =>
    rw [hfault] at hroot
    have hne := (not_mem_of_textFault? hfault).2
    have habsolute : (entryPath root names).isAbsolute = root.isAbsolute := by
      rw [entryPath_eq_join root hnames, Path.isAbsolute_join hne]
    have hfound : Trail.Found tree (if root.isAbsolute then [] else tree.trailTo here) := by
      split
      · exact Trail.found_nil
      · exact found_trailTo here
    obtain ⟨hwalk, hentries⟩ := walk_append hfound hroot (names.map .down)
    obtain ⟨front, hfront, hmoves⟩ := exists_front_moves hne hnames
    refine ⟨hentries, ?_⟩
    rw [textFault?_entryPath hfault hnames, habsolute, hmoves, ← hwalk]
    cases isTooLong (entryPath root names) with
    | true => rfl
    | false =>
      show tree.walk .direct true mostLinks _ (front ++ names.map .down)
        = tree.walk .direct true mostLinks _ (moves root ++ names.map .down)
      rcases hfront with h | h
      · rw [h]
      · rw [h, List.append_assoc]
        exact (walk_append_halt (mt List.map_eq_nil_iff.mp hnames)).symm

/-- The path of an entry below a directory leads to a file exactly where the system looks at the entry and
the names lead to a file. -/
theorem isFile_entryPath
    (hroot : tree.resolve true here root = .ok (.present start (.directory entries), links))
    (hshort : ∀ name ∈ names, name.bytes.length ≤ longestName)
    (hat : (Node.directory entries).at? names = some x) :
    tree.isFile here (entryPath root names)
      = ((entryFault? tree start root names).isNone && leadsToFile tree start links names x) := by
  rw [isFile_eq_reachesFile]
  by_cases hnames : names = []
  · subst hnames
    obtain rfl := Option.some.inj hat
    show reachesFile (tree.resolve true here root) = _
    rw [hroot]
    exact (Bool.and_false _).symm
  obtain ⟨hentries, hresolve⟩ := resolve_entryPath hroot hnames
  have hplace : (tree.trailTo start).place = start := place_trailFrom start
  rw [← hentries] at hat
  have hreaches := reachesFile_walk_names links (found_trailTo start) hshort hat
  rw [hplace] at hreaches
  unfold entryFault?
  rw [hresolve]
  cases isTooLong (entryPath root names) with
  | true => rfl
  | false =>
    show reachesFile (tree.walk .direct true links (tree.trailTo start) (names.map .down)) = _
    rw [hreaches]
    cases tree.mayDescend start names with
    | true => rfl
    | false => rfl

end Names

end FileTree

end ExportDiff
