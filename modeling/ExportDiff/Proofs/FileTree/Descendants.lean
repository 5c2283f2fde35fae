/-
# ExportDiff.Proofs.FileTree.Descendants — every entry below a directory, once and in order

The descendants of a node are listed with the names that lead to them. In a node whose directories
have their entries in name order, the names lead to one node only (`Node.at?`), and the list has
exactly the nodes that some names lead to. It is in the order of the names, read from the front: a
directory stands before what it holds, and what it holds before the next entry.

A path followed in a tree in order leads to a node in order.
-/

import ExportDiff.FileTree.Resolve
import ExportDiff.Proofs.Assoc

namespace ExportDiff.FileTree

/-! ## Nodes in order -/

/-- The node to which names lead from a node. -/
def Node.at? : Node → Place → Option Node
  | node, [] => some node
  | .directory entries, name :: place => (Assoc.find? name entries).bind fun node => node.at? place
  | _, _ :: _ => none

/-- The entries of every directory in a node stand in name order, each name once. -/
def Node.Ordered (node : Node) : Prop :=
  ∀ place entries, node.at? place = some (.directory entries) → Assoc.Sorted entries

/-- The entries of every directory of a tree stand in name order, each name once. -/
def Ordered (tree : FileTree) : Prop := (Node.directory tree.entries).Ordered

section Order

variable {node inner : Node} {entries : Entries} {name : Name} {place : Place}

@[simp] theorem Node.at?_nil (node : Node) : node.at? [] = some node := by
  cases node <;> rfl

theorem Node.at?_directory_cons (entries : Entries) (name : Name) (place : Place) :
    (Node.directory entries).at? (name :: place)
      = (Assoc.find? name entries).bind fun node => node.at? place := rfl

theorem Node.Ordered.sorted (h : (Node.directory entries).Ordered) : Assoc.Sorted entries :=
  h [] entries rfl

theorem Node.Ordered.of_find? (h : (Node.directory entries).Ordered)
    (hinner : Assoc.find? name entries = some inner) : inner.Ordered := by
  intro place below hbelow
  refine h (name :: place) below ?_
  rw [Node.at?_directory_cons, hinner]
  exact hbelow

theorem Node.Ordered.of_mem (h : (Node.directory entries).Ordered)
    (hmem : (name, inner) ∈ entries) : inner.Ordered :=
  h.of_find? (h.sorted.find?_of_mem hmem)

/-- A directory is in order if its entries are, and each of them is. -/
theorem Node.ordered_directory (hsorted : Assoc.Sorted entries)
    (hentries : ∀ p ∈ entries, p.2.Ordered) : (Node.directory entries).Ordered := by
  intro place below hbelow
  cases place with
  | nil =>
    obtain rfl := Node.directory.inj (Option.some.inj hbelow)
    exact hsorted
  | cons name place =>
    obtain ⟨inner, hinner, hbelow⟩ := Option.bind_eq_some_iff.mp hbelow
    exact hentries _ (Assoc.mem_of_find? hinner) place below hbelow

/-- A node that is no directory has nothing out of order. -/
theorem Node.ordered_of_isDirectory_eq_false (h : node.isDirectory = false) : node.Ordered := by
  intro place entries hat
  cases node with
  | directory inner => cases h
  | file content => cases place <;> cases hat
  | link target => cases place <;> cases hat

/-- A directory that holds no other ones is in order if its entries are. -/
theorem Node.ordered_of_leaves (hsorted : Assoc.Sorted entries)
    (hleaves : ∀ p ∈ entries, p.2.isDirectory = false) : (Node.directory entries).Ordered :=
  Node.ordered_directory hsorted fun p hp => Node.ordered_of_isDirectory_eq_false (hleaves p hp)

end Order

/-! ## The descendants -/

mutual

/-- The descendants of a node are the nodes that names lead to. -/
theorem Node.mem_descendants (node : Node) (h : node.Ordered) (place : Place) (x : Node) :
    (place, x) ∈ node.descendants ↔ place ≠ [] ∧ node.at? place = some x :=
  match node with
  | .file _ => by cases place <;> simp [Node.descendants, Node.at?]
  | .link _ => by cases place <;> simp [Node.descendants, Node.at?]
  | .directory entries => by
    rw [Node.descendants, mem_descendantsOf entries fun p hp => h.of_mem hp]
    constructor
    · rintro ⟨p, hp, below, rfl, hx⟩
      refine ⟨List.cons_ne_nil _ _, ?_⟩
      rw [Node.at?_directory_cons, h.sorted.find?_of_mem hp]
      exact hx
    · rintro ⟨hne, hx⟩
      cases place with
      | nil => exact absurd rfl hne
      | cons name below =>
        obtain ⟨inner, hinner, hx⟩ := Option.bind_eq_some_iff.mp hx
        exact ⟨_, Assoc.mem_of_find? hinner, below, rfl, hx⟩

/-- The descendants of entries are the nodes that names lead to from one of them. -/
theorem mem_descendantsOf (entries : List (Name × Node)) (h : ∀ p ∈ entries, p.2.Ordered)
    (place : Place) (x : Node) : (place, x) ∈ descendantsOf entries ↔
      ∃ p ∈ entries, ∃ below, place = p.1 :: below ∧ p.2.at? below = some x :=
  match entries with
  | [] => by simp [descendantsOf]
  | (name, node) :: rest => by
    obtain ⟨hnode, hrest⟩ := List.forall_mem_cons.mp h
    have hfirst : (place, x) ∈ ([name], node) :: (node.descendants.map fun (below, y) =>
        (name :: below, y)) ↔ ∃ below, place = name :: below ∧ node.at? below = some x := by
      rw [List.mem_cons, List.mem_map]
      constructor
      · rintro (heq | ⟨⟨below, y⟩, hy, heq⟩)
        · obtain ⟨rfl, rfl⟩ := Prod.mk.inj heq
          exact ⟨[], rfl, Node.at?_nil x⟩
        · obtain ⟨rfl, rfl⟩ := Prod.mk.inj heq
          exact ⟨below, rfl, ((Node.mem_descendants node hnode below y).mp hy).2⟩
      · rintro ⟨below, rfl, hx⟩
        cases below with
        | nil =>
          rw [Node.at?_nil] at hx
          exact Or.inl (by rw [Option.some.inj hx])
        | cons next below =>
          have hmem := (Node.mem_descendants node hnode (next :: below) x).mpr
            ⟨List.cons_ne_nil _ _, hx⟩
          exact Or.inr ⟨_, hmem, rfl⟩
    rw [descendantsOf, List.mem_append, hfirst, mem_descendantsOf rest hrest]
    simp

end

/-! ## Their order -/

theorem nil_lt_of_mem_descendants {node x : Node} {place : Place} (h : node.Ordered)
    (hmem : (place, x) ∈ node.descendants) : [] < place := by
  obtain ⟨name, below, rfl⟩ :=
    List.exists_cons_of_ne_nil ((Node.mem_descendants node h place x).mp hmem).1
  exact List.nil_lt_cons name below

mutual

/-- The descendants of a node stand in the order of the names that lead to them. -/
theorem Node.pairwise_descendants (node : Node) (h : node.Ordered) :
    (node.descendants.map (·.1)).Pairwise (· < ·) :=
  match node with
  | .file _ => List.Pairwise.nil
  | .link _ => List.Pairwise.nil
  | .directory entries => pairwise_descendantsOf entries h.sorted fun _ hp => h.of_mem hp

theorem pairwise_descendantsOf (entries : List (Name × Node)) (hsorted : Assoc.Sorted entries)
    (h : ∀ p ∈ entries, p.2.Ordered) : ((descendantsOf entries).map (·.1)).Pairwise (· < ·) :=
  match entries with
  | [] => List.Pairwise.nil
  | (name, node) :: rest => by
    obtain ⟨hname, hrest⟩ := Assoc.sorted_cons.mp hsorted
    obtain ⟨hnode, hnodes⟩ := List.forall_mem_cons.mp h
    have hplaces : (descendantsOf ((name, node) :: rest)).map (·.1)
        = [name] :: (node.descendants.map fun p => name :: p.1)
          ++ (descendantsOf rest).map (·.1) := by
      rw [descendantsOf, List.map_append, List.map_cons, List.map_map]
      rfl
    -- what stands behind all that begins with this name begins with a greater one
    have hlater : ∀ place ∈ (descendantsOf rest).map (·.1), ∀ below, name :: below < place := by
      rintro place hplace below
      obtain ⟨⟨_, x⟩, hx, rfl⟩ := List.mem_map.mp hplace
      obtain ⟨p, hp, after, rfl, -⟩ := (mem_descendantsOf rest hnodes _ x).mp hx
      exact List.cons_lt_cons_iff.mpr (Or.inl (hname p hp))
    rw [hplaces, List.cons_append, List.pairwise_cons, List.pairwise_append]
    refine ⟨fun place hplace => ?_, ?_, pairwise_descendantsOf rest hrest hnodes, ?_⟩
    · rcases List.mem_append.mp hplace with hplace | hplace
      · obtain ⟨⟨below, x⟩, hx, rfl⟩ := List.mem_map.mp hplace
        exact List.cons_lt_cons_iff.mpr (Or.inr ⟨rfl, nil_lt_of_mem_descendants hnode hx⟩)
      · exact hlater place hplace []
    · have hinner := List.pairwise_map.mp (Node.pairwise_descendants node hnode)
      refine List.pairwise_map.mpr (hinner.imp fun hlt => ?_)
      exact List.cons_lt_cons_iff.mpr (Or.inr ⟨rfl, hlt⟩)
    · intro place hplace later hmem
      obtain ⟨p, -, rfl⟩ := List.mem_map.mp hplace
      exact hlater later hmem p.1

end

/-! ## A node with its descendants -/

section Whole

variable {node x : Node} {place : Place}

theorem Node.Ordered.mem_cons_descendants (h : node.Ordered) :
    (place, x) ∈ ([], node) :: node.descendants ↔ node.at? place = some x := by
  rw [List.mem_cons, Node.mem_descendants node h place x]
  cases place with
  | nil => simp [eq_comm]
  | cons name place => simp

theorem Node.Ordered.pairwise_cons_descendants (h : node.Ordered) :
    ((([], node) :: node.descendants).map (·.1)).Pairwise (· < ·) := by
  rw [List.map_cons, List.pairwise_cons]
  refine ⟨fun place hplace => ?_, Node.pairwise_descendants node h⟩
  obtain ⟨⟨_, x⟩, hx, rfl⟩ := List.mem_map.mp hplace
  exact nil_lt_of_mem_descendants h hx

end Whole

/-! ## Following a path -/

section Following

variable {tree : FileTree} {trail : Trail} {here place : Place} {node : Node}

/-- Every directory on a trail is in order. -/
def Trail.Ordered (trail : Trail) : Prop := ∀ step ∈ trail, (Node.directory step.2).Ordered

theorem Trail.ordered_nil : Trail.Ordered [] := by
  intro step hstep
  cases hstep

theorem Trail.Ordered.cons {name : Name} {entries : Entries} (h : trail.Ordered)
    (hentries : (Node.directory entries).Ordered) : Trail.Ordered ((name, entries) :: trail) :=
  List.forall_mem_cons.mpr ⟨hentries, h⟩

theorem Trail.Ordered.tail (h : trail.Ordered) : Trail.Ordered trail.tail := fun step hstep =>
  h step (List.mem_of_mem_tail hstep)

theorem Ordered.entriesAt (htree : tree.Ordered) (htrail : trail.Ordered) :
    (Node.directory (tree.entriesAt trail)).Ordered := by
  cases trail with
  | nil => exact htree
  | cons step trail => exact htrail step List.mem_cons_self

theorem ordered_trailFrom (htree : tree.Ordered) (htrail : trail.Ordered) :
    (tree.trailFrom trail place).Ordered := by
  have hempty : (Node.directory []).Ordered :=
    Node.ordered_directory Assoc.sorted_nil fun p hp => by cases hp
  induction place generalizing trail with
  | nil => exact htrail
  | cons name place ih =>
    rw [trailFrom]
    split
    · next entries hfind => exact ih (htrail.cons ((htree.entriesAt htrail).of_find? hfind))
    · exact ih (htrail.cons hempty)

/-- Steps from a trail in order lead to a node in order. -/
theorem ordered_of_walk {lookup : Lookup} {follow : Bool} {links left : Nat} {steps : List Move}
    (htree : tree.Ordered) (htrail : trail.Ordered)
    (h : tree.walk lookup follow links trail steps = .ok (.present place node, left)) :
    node.Ordered := by
  fun_induction FileTree.walk tree lookup follow links trail steps with
  | case1 links trail =>
    cases h
    exact htree.entriesAt htrail
  | case2 links trail rest ih => exact ih htrail h
  | case3 links trail rest hturn ih => exact ih htrail h
  | case5 links trail rest hturn ih => exact ih htrail.tail h
  | case11 links trail name rest hask entries hfind hasked ih =>
    exact ih (htrail.cons ((htree.entriesAt htrail).of_find? hfind)) h
  | case12 links trail name rest hask content hfind hrest =>
    cases h
    exact Node.ordered_of_isDirectory_eq_false rfl
  | case14 links trail name rest hask target hfind hrest =>
    cases h
    exact Node.ordered_of_isDirectory_eq_false rfl
  | case16 trail name rest hask target hfind hrest links ih =>
    refine ih ?_ h
    split
    · exact Trail.ordered_nil
    · exact htrail
  | _ => cases h

/-- In a tree in order, a path leads to a node in order. -/
theorem Ordered.of_resolve {follow : Bool} {p : Path} {left : Nat} (htree : tree.Ordered)
    (h : tree.resolve follow here p = .ok (.present place node, left)) : node.Ordered := by
  unfold resolve resolveBy at h
  split at h
  · cases h
  · refine ordered_of_walk htree ?_ h
    split
    · exact Trail.ordered_nil
    · exact ordered_trailFrom htree Trail.ordered_nil

end Following

end ExportDiff.FileTree
