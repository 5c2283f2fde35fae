/-
# ExportDiff.FileTree — directories, files and symbolic links

A file tree is a directory: entries with distinct names in name order, each a file with its bytes, a
directory, or a symbolic link with the path it points to. A name is any string of bytes without `/`
and without a zero byte, other than the empty one, `.` and `..`; nothing says that it is text.

A place in the tree is the list of names that lead to it from the top. The tree also has the rights of
the process that looks at it: which directories it may search for a name, and what it may open to read.
A directory that may be listed but not searched tells the names of its entries, and nothing else about
them. Rights to write are left out, and so are devices, pipes and sockets: an entry is a file, a
directory or a link.
-/

import ExportDiff.Assoc
import ExportDiff.Path

namespace ExportDiff.FileTree

/-! ## Names -/

/-- Whether bytes can be the name of an entry. -/
def isName (bytes : List UInt8) : Bool :=
  !bytes.isEmpty && !bytes.contains Path.slash && !bytes.contains 0 && bytes != [0x2E] &&
    bytes != [0x2E, 0x2E]

/-- The name of an entry. -/
structure Name where
  bytes : List UInt8
  valid : isName bytes = true
  deriving DecidableEq

namespace Name

theorem ext {m n : Name} (h : m.bytes = n.bytes) : m = n := by
  cases m; cases n; cases h; rfl

instance : LT Name := ⟨fun m n => m.bytes < n.bytes⟩

instance : LE Name := ⟨fun m n => m.bytes ≤ n.bytes⟩

instance : DecidableLT Name := fun m n => inferInstanceAs (Decidable (m.bytes < n.bytes))

instance : DecidableLE Name := fun m n => inferInstanceAs (Decidable (m.bytes ≤ n.bytes))

instance : Std.IsLinearOrder Name where
  le_refl m := Std.le_refl m.bytes
  le_trans _ _ _ h₁ h₂ := Std.le_trans (α := List UInt8) h₁ h₂
  le_antisymm _ _ h₁ h₂ := ext (Std.le_antisymm (α := List UInt8) h₁ h₂)
  le_total m n := Std.le_total (a := m.bytes) (b := n.bytes)

instance : Std.LawfulOrderLT Name where
  lt_iff m n := Std.LawfulOrderLT.lt_iff m.bytes n.bytes

/-- The name with these bytes. -/
def ofBytes? (bytes : List UInt8) : Option Name :=
  if h : isName bytes = true then some ⟨bytes, h⟩ else none

end Name

/-! ## Nodes -/

/-- What an entry is. -/
inductive Node where
  | file (content : ByteArray)
  | directory (entries : List (Name × Node))
  | link (target : Path)

/-- Whether a node is a directory. -/
def Node.isDirectory : Node → Bool
  | .directory _ => true
  | _ => false

/-- The entries of a directory. -/
abbrev Entries := List (Name × Node)

/-- A place: the names that lead to it from the top. -/
abbrev Place := List Name

end FileTree

/-- A tree of files: the entries of its top directory, and the rights at each place. Where nothing else
is said, everything may be entered and read. -/
structure FileTree where
  entries : FileTree.Entries
  /-- Whether the directory at a place may be searched for a name. -/
  mayEnter : FileTree.Place → Bool := fun _ => true
  /-- Whether the directory at a place may be listed, or the file there be read. -/
  mayRead : FileTree.Place → Bool := fun _ => true

namespace FileTree

/-- The tree without entries. -/
def empty : FileTree := { entries := [] }

/-- Whether every directory may be entered in which names are asked for on the way down from a place.
The last name is asked for, and not entered. -/
def mayDescend (tree : FileTree) : Place → List Name → Bool
  | _, [] => true
  | place, name :: names => tree.mayEnter place && tree.mayDescend (place ++ [name]) names

/-- A place as an absolute path. -/
def pathOf (place : Place) : Path :=
  (⟨[Path.slash]⟩ : Path).joinAll (place.map (·.bytes))

/-! ## Trails -/

/-- The way from the top down to a directory: the directories on it, each with its name and its
entries, the lowest first. -/
abbrev Trail := List (Name × Entries)

/-- The place that a trail leads to. -/
def Trail.place (trail : Trail) : Place := (trail.map (·.1)).reverse

/-- The entries of the directory that a trail leads to. -/
def entriesAt (tree : FileTree) : Trail → Entries
  | [] => tree.entries
  | (_, entries) :: _ => entries

/-- The trail to a place below another trail; where no directory is, it goes on without entries. -/
def trailFrom (tree : FileTree) : Trail → Place → Trail
  | trail, [] => trail
  | trail, name :: place =>
    match Assoc.find? name (tree.entriesAt trail) with
    | some (.directory entries) => tree.trailFrom ((name, entries) :: trail) place
    | _ => tree.trailFrom ((name, []) :: trail) place

/-- The trail to a place. -/
def trailTo (tree : FileTree) (place : Place) : Trail := tree.trailFrom [] place

/-! ## Walking -/

mutual

/-- The nodes below a node, each with the names that lead to it: every entry before the entries below
it, and the entries of one directory in its order. -/
def Node.descendants : Node → List (Place × Node)
  | .directory entries => descendantsOf entries
  | .file _ => []
  | .link _ => []
termination_by structural node => node

/-- The nodes of a list of entries and below them. -/
def descendantsOf : List (Name × Node) → List (Place × Node)
  | [] => []
  | (name, node) :: rest =>
    ([name], node) :: (node.descendants.map fun (place, x) => (name :: place, x)) ++ descendantsOf rest
termination_by structural entries => entries

end

end FileTree

end ExportDiff
