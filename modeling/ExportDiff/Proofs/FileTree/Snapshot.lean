/-
# ExportDiff.Proofs.FileTree.Snapshot — a snapshot describes a tree in order

Changing a directory sets or removes one entry, at the place that its name has in the order. So every
operation on paths leaves a tree in order that was in order before, whether it succeeds or not, as
long as the nodes that it puts into the tree are in order themselves: they are new files, links and
empty directories, or a node of the tree that is moved. A snapshot is read by such operations, and the
tree that they begin with is empty.
-/

import ExportDiff.FileTree.Snapshot
import ExportDiff.Proofs.FileTree.Descendants

namespace ExportDiff.FileTree

/-! ## Changing a directory -/

section Change

variable {tree : FileTree} {entries : Entries} {name : Name} {node : Node} {place : Place}

theorem ordered_empty : FileTree.empty.Ordered :=
  Node.ordered_directory Assoc.sorted_nil fun p hp => by cases hp

theorem Node.Ordered.insert (h : (Node.directory entries).Ordered) (hnode : node.Ordered) :
    (Node.directory (Assoc.insert name node entries)).Ordered := by
  refine Node.ordered_directory (h.sorted.insert name node) fun p hp => ?_
  rcases Assoc.mem_insert hp with rfl | hp
  · exact hnode
  · exact h.of_mem hp

theorem Node.Ordered.erase (h : (Node.directory entries).Ordered) :
    (Node.directory (Assoc.erase name entries)).Ordered :=
  Node.ordered_directory (h.sorted.erase name) fun _ hp => h.of_mem (List.mem_filter.mp hp).1

/-- Changing the directory at a place keeps what is around it in order. -/
theorem Node.Ordered.changeIn {change : Entries → Entries}
    (hchange : ∀ inner, (Node.directory inner).Ordered → (Node.directory (change inner)).Ordered)
    (h : (Node.directory entries).Ordered) :
    (Node.directory (FileTree.changeIn change place entries)).Ordered := by
  induction place generalizing entries with
  | nil => exact hchange entries h
  | cons name place ih =>
    rw [FileTree.changeIn]
    split
    · next inner hinner => exact h.insert (ih (h.of_find? hinner))
    · exact h

theorem Ordered.setEntry (h : tree.Ordered) (hnode : node.Ordered) :
    (tree.setEntry place name node).Ordered :=
  Node.Ordered.changeIn (fun _ hinner => hinner.insert hnode) h

theorem Ordered.eraseEntry (h : tree.Ordered) : (tree.eraseEntry place name).Ordered :=
  Node.Ordered.changeIn (fun _ hinner => hinner.erase) h

theorem Ordered.setNode (h : tree.Ordered) (hnode : node.Ordered) :
    (tree.setNode place node).Ordered := by
  unfold FileTree.setNode
  split
  · exact h.setEntry hnode
  · exact h

theorem Ordered.eraseNode (h : tree.Ordered) : (tree.eraseNode place).Ordered := by
  unfold FileTree.eraseNode
  split
  · exact h.eraseEntry
  · exact h

end Change

/-! ## Operations on paths -/

section Operations

variable {tree : FileTree} {here : Place} {p q : Path}

theorem ordered_file (content : ByteArray) : (Node.file content).Ordered :=
  Node.ordered_of_isDirectory_eq_false rfl

theorem ordered_link (target : Path) : (Node.link target).Ordered :=
  Node.ordered_of_isDirectory_eq_false rfl

theorem Ordered.makeDirectory (h : tree.Ordered) (here : Place) (p : Path) :
    (tree.makeDirectory here p).1.Ordered := by
  unfold FileTree.makeDirectory
  split
  · exact h
  · exact h
  · exact h.setEntry ordered_empty

theorem Ordered.makeDirectories (h : tree.Ordered) (here : Place) (p : Path) :
    (tree.makeDirectories here p).1.Ordered := by
  fun_induction FileTree.makeDirectories tree here p with
  | case1 => exact h
  | case2 p hp changed hmade =>
    have hchanged := h.makeDirectory here p
    rwa [hmade] at hchanged
  | case3 p hp _ hmade hshorter changed e hparent ih =>
    rwa [hparent] at ih
  | case4 p hp _ hmade hshorter changed hparent hthere ih =>
    rwa [hparent] at ih
  | case5 p hp _ hmade hshorter changed hparent hmissing ih =>
    rw [hparent] at ih
    exact ih.makeDirectory here p
  | case6 => exact h
  | case7 p hp changed e he hmade =>
    have hchanged := h.makeDirectory here p
    rwa [hmade] at hchanged

theorem Ordered.writeFile {content : ByteArray} (h : tree.Ordered) :
    (tree.writeFile here p content).1.Ordered := by
  unfold FileTree.writeFile
  split
  · exact h
  · exact h
  · exact h.setNode (ordered_file content)
  · exact h.setEntry (ordered_file content)

theorem Ordered.write {content : ByteArray} (h : tree.Ordered) :
    (tree.write here p content).1.Ordered := by
  have hparent := h.makeDirectories here (parent p)
  unfold FileTree.write
  split
  · next heq => rwa [heq] at hparent
  · next heq =>
    rw [heq] at hparent
    exact hparent.writeFile

theorem Ordered.makeLink {target : Path} (h : tree.Ordered) :
    (tree.makeLink here p target).1.Ordered := by
  unfold FileTree.makeLink
  split
  · exact h
  split
  · exact h
  · exact h
  · exact h.setEntry (ordered_link target)

theorem Ordered.removeDirectory (h : tree.Ordered) (here : Place) (p : Path) :
    (tree.removeDirectory here p).1.Ordered := by
  unfold FileTree.removeDirectory
  split
  · exact h
  · exact h
  · split
    · exact h.eraseNode
    · exact h
  · exact h

theorem Ordered.remove (h : tree.Ordered) : (tree.remove here p).1.Ordered := by
  unfold FileTree.remove
  split
  · exact h
  · next place _ _ =>
    have hemptied : (tree.setNode place (.directory [])).Ordered := h.setNode ordered_empty
    have hremoved := hemptied.removeDirectory here p
    split
    · next heq => rwa [heq] at hremoved
    · exact hremoved
  · exact h.eraseNode

/-- What a path without its last separators leads to is in order. -/
theorem Ordered.of_resolveEntry {place : Place} {node : Node} (h : tree.Ordered)
    (hentry : tree.resolveEntry here p = .ok (.present place node)) : node.Ordered := by
  unfold FileTree.resolveEntry at hentry
  split at hentry
  · cases hentry
  · cases hresolve : tree.resolve false here (withoutTrailing p) with
    | error e =>
      rw [hresolve] at hentry
      cases hentry
    | ok found =>
      rw [hresolve] at hentry
      obtain ⟨target, links⟩ := found
      obtain rfl : target = .present place node := Except.ok.inj hentry
      exact h.of_resolve hresolve

theorem Ordered.rename (h : tree.Ordered) : (tree.rename here p q).1.Ordered := by
  unfold FileTree.rename
  split
  · exact h
  · exact h
  · exact h
  · next place node target hp hq =>
    have hmoved : ((tree.eraseNode place).setNode target.place node).Ordered :=
      h.eraseNode.setNode (h.of_resolveEntry hp)
    split
    · exact h
    split
    · exact h
    split
    · exact h
    split
    · exact h
    split
    · exact h
    · exact hmoved

end Operations

/-! ## Snapshots -/

theorem Ordered.add {tree : FileTree} {p : Path} (h : tree.Ordered) (description : Description) :
    (tree.add p description).1.Ordered := by
  cases description with
  | file content => exact h.write
  | directory => exact h.makeDirectories [] p
  | link target =>
    have hparent := h.makeDirectories [] (parent p)
    unfold FileTree.add
    dsimp only
    split
    · next heq => rwa [heq] at hparent
    · next heq =>
      rw [heq] at hparent
      exact hparent.makeLink

/-- A line of a snapshot that is read leaves a tree in order. -/
theorem Ordered.addLine {tree changed : FileTree} {line : String} (h : tree.Ordered)
    (hline : tree.addLine line = .ok changed) : changed.Ordered := by
  unfold FileTree.addLine at hline
  cases hread : Json.parse line with
  | error e =>
    rw [hread] at hline
    cases hline
  | ok description =>
    rw [hread] at hline
    dsimp only at hline
    split at hline
    · cases hline
    · next p hpath =>
      have hadd := h.add (p := p) (.ofLine description)
      split at hline
      · next next heq =>
        rw [heq] at hadd
        exact Except.ok.inj hline ▸ hadd
      · cases hline

/-- The tree that a snapshot describes is in order. -/
theorem ordered_ofSnapshot {lines : List String} {tree : FileTree}
    (h : ofSnapshot lines = .ok tree) : tree.Ordered := by
  suffices hfold : ∀ start : FileTree, start.Ordered → lines.foldlM FileTree.addLine start = .ok tree →
      tree.Ordered from hfold empty ordered_empty h
  clear h
  induction lines with
  | nil =>
    intro start hstart hlines
    cases hlines
    exact hstart
  | cons line lines ih =>
    intro start hstart hlines
    rw [List.foldlM_cons] at hlines
    cases hline : start.addLine line with
    | error e =>
      rw [hline] at hlines
      cases hlines
    | ok next =>
      rw [hline] at hlines
      exact ih next (hstart.addLine hline) hlines

end ExportDiff.FileTree
