/-
# ExportDiff.FileTree.Edit — changing a tree

Directories, files and links are created, files overwritten, entries removed and moved as the
system's own calls do it, symbolic links on the way to a path being followed. An operation that the
system refuses says why. The rights at each place stay as they are, and there is none that an operation
needs other than to enter the directories on the way.
-/

import ExportDiff.FileTree.Resolve

namespace ExportDiff.FileTree

/-! ## Changing a directory -/

/-- Changes the entries of the directory at a place. -/
def changeIn (change : Entries → Entries) : Place → Entries → Entries
  | [], entries => change entries
  | name :: place, entries =>
    match Assoc.find? name entries with
    | some (.directory inner) =>
      Assoc.insert name (.directory (changeIn change place inner)) entries
    | _ => entries

/-- Sets the entry with a name in the directory at a place. -/
def setEntry (tree : FileTree) (place : Place) (name : Name) (node : Node) : FileTree :=
  { tree with entries := changeIn (Assoc.insert name node) place tree.entries }

/-- Removes the entry with a name from the directory at a place. -/
def eraseEntry (tree : FileTree) (place : Place) (name : Name) : FileTree :=
  { tree with entries := changeIn (Assoc.erase name) place tree.entries }

/-- Sets the node at a place; the top itself stays. -/
def setNode (tree : FileTree) (place : Place) (node : Node) : FileTree :=
  match place.getLast? with
  | some name => tree.setEntry place.dropLast name node
  | none => tree

/-- Removes the node at a place; the top itself stays. -/
def eraseNode (tree : FileTree) (place : Place) : FileTree :=
  match place.getLast? with
  | some name => tree.eraseEntry place.dropLast name
  | none => tree

/-! ## Operations on paths -/

/-- The outcome of an operation: the tree after it, and why it went wrong, if it did. -/
abbrev Outcome := FileTree × Option PathError

/-- A path without separators at its end. -/
def withoutTrailing (p : Path) : Path :=
  ⟨(p.bytes.reverse.dropWhile (· == Path.slash)).reverse⟩

/-- Whether a part between separators changes nothing. -/
def isIdle (part : List UInt8) : Bool := part == [] || part == [0x2E]

/-- The path without its last component. -/
def parent (p : Path) : Path :=
  let parts := ((Path.splitAtSlash p.bytes).reverse.dropWhile isIdle).tail.dropWhile isIdle
  ⟨if parts = [] ∧ p.isAbsolute then [Path.slash] else [Path.slash].intercalate parts.reverse⟩

/-- What a path without the separators at its end leads to; a link there is not followed. -/
def resolveEntry (tree : FileTree) (here : Place) (p : Path) : Except PathError Target :=
  match textFault? p with
  | some e => .error e
  | none => (tree.resolve false here (withoutTrailing p)).map (·.1)

/-- Creates a directory in a directory that exists. -/
def makeDirectory (tree : FileTree) (here : Place) (p : Path) : Outcome :=
  match tree.resolveEntry here p with
  | .error e => (tree, some e)
  | .ok (.present _ _) => (tree, some .exists)
  | .ok (.absent directory name) => (tree.setEntry directory name (.directory []), none)

/-- Creates a directory, unless it is there already. If it cannot be created for want of the directory
that is to hold it, this one is created first, in the same way. -/
def makeDirectories (tree : FileTree) (here : Place) (p : Path) : Outcome :=
  if p.bytes = [] ∨ tree.isDirectory here p then (tree, none)
  else
    match tree.makeDirectory here p with
    | (changed, none) => (changed, none)
    | (_, some .notFound) =>
      -- Every path has a shorter parent, except one that has no component to take away.
      if _h : (parent p).bytes.length < p.bytes.length then
        match tree.makeDirectories here (parent p) with
        | (tree, some e) => (tree, some e)
        | (tree, none) => if tree.isDirectory here p then (tree, none) else tree.makeDirectory here p
      else (tree, some .notFound)
    | (_, some e) => (tree, some e)
termination_by p.bytes.length

/-- Writes a file in a directory that exists. -/
def writeFile (tree : FileTree) (here : Place) (p : Path) (content : ByteArray) : Outcome :=
  match tree.resolve true here p with
  | .error e => (tree, some e)
  | .ok (.present _ (.directory _), _) => (tree, some .isDirectory)
  | .ok (.present place _, _) => (tree.setNode place (.file content), none)
  | .ok (.absent directory name, _) => (tree.setEntry directory name (.file content), none)

/-- Writes a file, after creating the directories that lead to it. -/
def write (tree : FileTree) (here : Place) (p : Path) (content : ByteArray) : Outcome :=
  match tree.makeDirectories here (parent p) with
  | (tree, some e) => (tree, some e)
  | (tree, none) => tree.writeFile here p content

/-- Creates a symbolic link in a directory that exists. -/
def makeLink (tree : FileTree) (here : Place) (p target : Path) : Outcome :=
  match textFault? target with
  | some e => (tree, some e)
  | none =>
    match tree.resolve false here p with
    | .error e => (tree, some e)
    | .ok (.present _ _, _) => (tree, some .exists)
    | .ok (.absent directory name, _) => (tree.setEntry directory name (.link target), none)

/-- Whether the last step of a path goes down to a name. -/
def endsInName (p : Path) : Bool :=
  match (moves (withoutTrailing p)).getLast? with
  | some (.down _) => true
  | _ => false

/-- Removes a directory that holds nothing and is reached by its own name. -/
def removeDirectory (tree : FileTree) (here : Place) (p : Path) : Outcome :=
  match tree.find? false here (withoutTrailing p) with
  | .error e => (tree, some e)
  | .ok (_, .directory (_ :: _)) => (tree, some .notEmpty)
  | .ok (place, .directory []) =>
    if endsInName p then (tree.eraseNode place, none) else (tree, some .invalid)
  | .ok _ => (tree, some .notDirectory)

/-- Removes a file, a link, or a directory with all that it holds. A directory is emptied first. If the
path led to it through what it held, the path leads nowhere by then, and the directory stays. -/
def remove (tree : FileTree) (here : Place) (p : Path) : Outcome :=
  match tree.find? false here p with
  | .error e => (tree, some e)
  | .ok (place, .directory _) =>
    match (tree.setNode place (.directory [])).removeDirectory here p with
    | (tree, some .notFound) => (tree, none)
    | outcome => outcome
  | .ok (place, _) => (tree.eraseNode place, none)

/-- Why the system refuses to let a node take the place of what a path leads to, if it does. A
directory takes the place of an empty directory only, any other node of any node but a directory. -/
def refusal? : Node → Target → Option PathError
  | .directory _, .present _ (.directory []) => none
  | .directory _, .present _ (.directory _) => some .notEmpty
  | .directory _, .present _ _ => some .notDirectory
  | .directory _, .absent _ _ => none
  | _, .present _ (.directory _) => some .isDirectory
  | _, _ => none

/-- The place that a path leads to. -/
def Target.place : Target → Place
  | .present place _ => place
  | .absent directory name => directory ++ [name]

/-- Whether a path has a separator at its end. -/
def endsInSlash (p : Path) : Bool := p.bytes.getLast? == some Path.slash

/-- Moves a node to another path, but not below itself. Only a directory may be given with a separator
at the end of either path. -/
def rename (tree : FileTree) (here : Place) (p q : Path) : Outcome :=
  match tree.resolveEntry here p, tree.resolveEntry here q with
  | .error e, _ => (tree, some e)
  | _, .error e => (tree, some e)
  | .ok (.absent _ _), _ => (tree, some .notFound)
  | .ok (.present place node), .ok target =>
    if ¬ endsInName p ∨ ¬ endsInName q then (tree, some .busy)
    else if (endsInSlash p ∨ endsInSlash q) ∧ ¬ node.isDirectory then (tree, some .notDirectory)
    else if place = target.place then (tree, none)
    else if place.isPrefixOf target.place then (tree, some .invalid)
    else
      match refusal? node target with
      | some e => (tree, some e)
      | none => ((tree.eraseNode place).setNode target.place node, none)

end ExportDiff.FileTree
