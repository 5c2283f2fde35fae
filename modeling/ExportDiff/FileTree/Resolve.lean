/-
# ExportDiff.FileTree.Resolve — what a path leads to

A path is followed component by component, from the top if it is absolute and otherwise from a
working directory. A symbolic link on the way is replaced by its target, relative to the directory
that holds it; at the end of the path that is up to the caller. At most 40 links are followed, a
component may have at most 255 bytes, and a path at most 4095 bytes as it is written. A separator at
the end of a path, or a `.` there, demands a directory. A component is asked for in a directory, and the
directory must be one that may be entered, even if the component is `.` or `..`.

The canonical path of what a path leads to is found in the same way, but each component is asked for
by the canonical path of its own, which must not be too long either, and on which every directory must
be one that may be entered.
-/

import ExportDiff.FileTree.Basic

namespace ExportDiff.FileTree

/-! ## Why a path leads nowhere -/

/-- Why the system refuses to use a path. -/
inductive PathError where
  | notFound
  | denied
  | notDirectory
  | isDirectory
  | nameTooLong
  | tooManyLinks
  | zeroByte
  | notText
  | exists
  | notEmpty
  | invalid
  | busy
  deriving DecidableEq, Repr

/-- The wording of the system. -/
def PathError.message : PathError → String
  | .notFound => "No such file or directory (os error 2)"
  | .denied => "Permission denied (os error 13)"
  | .busy => "Device or resource busy (os error 16)"
  | .exists => "File exists (os error 17)"
  | .notDirectory => "Not a directory (os error 20)"
  | .isDirectory => "Is a directory (os error 21)"
  | .invalid => "Invalid argument (os error 22)"
  | .nameTooLong => "File name too long (os error 36)"
  | .notEmpty => "Directory not empty (os error 39)"
  | .tooManyLinks => "Too many levels of symbolic links (os error 40)"
  | .zeroByte => "file name contained an unexpected NUL byte"
  | .notText => "stream did not contain valid UTF-8"

/-! ## Steps -/

/-- One step along a path. -/
inductive Move where
  /-- To the directory itself, by a `.`. -/
  | stay
  /-- To the directory above, by a `..`. -/
  | up
  /-- To an entry of the directory. -/
  | down (name : Name)
  /-- No step, but a directory has to be there. -/
  | halt

/-- The step of a part between separators; empty parts are none. -/
def Move.ofPart? (part : List UInt8) : Option Move :=
  if part = [0x2E] then some .stay
  else if part = [0x2E, 0x2E] then some .up
  else (Name.ofBytes? part).map .down

/-- The steps of a path. A separator at its end demands a directory. -/
def moves (p : Path) : List Move :=
  let parts := Path.splitAtSlash p.bytes
  parts.filterMap Move.ofPart? ++
    if parts.length > 1 ∧ parts.getLast? = some [] then [.halt] else []

/-! ## Following -/

/-- The number of bytes a component may have. -/
def longestName : Nat := 255

/-- The number of links that are followed. -/
def mostLinks : Nat := 40

/-- The number of bytes a path may have. -/
def longestPath : Nat := 4095

/-- Whether a path has too many bytes. -/
def isTooLong (p : Path) : Bool := longestPath < p.bytes.length

/-- The number of bytes of the absolute path of the directory that a trail leads to, other than the
top. -/
def Trail.pathLength (trail : Trail) : Nat :=
  trail.foldr (fun step n => step.1.bytes.length + 1 + n) 0

/-- Whether steps ask for a directory before they go down again, if they do. -/
def demandDirectory : List Move → Bool
  | [] => false
  | .stay :: rest | .halt :: rest => rest.isEmpty || demandDirectory rest
  | .up :: _ => true
  | .down _ :: _ => false

/-- Where a path leads: to a node, or to a name that its directory does not have yet. -/
inductive Target where
  | present (place : Place) (node : Node)
  | absent (directory : Place) (name : Name)

/-- How the components of a path are found. -/
inductive Lookup where
  /-- In the directory reached so far. -/
  | direct
  /-- By their own absolute paths without links, with a separator behind where a directory is
  demanded. -/
  | canonical

/-- Whether an entry of the directory at the end of a trail cannot be asked for. The separator behind
it counts for directories. -/
def Lookup.refuses (lookup : Lookup) (trail : Trail) (name : Name) (separator : Bool) : Bool :=
  match lookup with
  | .direct => false
  | .canonical =>
    longestPath < trail.pathLength + 1 + name.bytes.length + if separator then 1 else 0

/-- Whether a `.` or `..` may be followed from the directory at the end of a trail. For a canonical path
they are worked out without asking. -/
def mayTurn (tree : FileTree) (lookup : Lookup) (trail : Trail) : Bool :=
  match lookup with
  | .direct => tree.mayEnter trail.place
  | .canonical => true

/-- Whether an entry of the directory at the end of a trail may be asked for. -/
def mayAsk (tree : FileTree) (lookup : Lookup) (trail : Trail) (name : Name) : Bool :=
  match lookup with
  | .direct => tree.mayEnter trail.place
  | .canonical => tree.mayDescend [] (trail.place ++ [name])

/-- Why an entry of the directory at the end of a trail cannot be asked for, if so. -/
def askFault? (tree : FileTree) (lookup : Lookup) (trail : Trail) (name : Name) : Option PathError :=
  if lookup.refuses trail name false then some .nameTooLong
  else if tree.mayAsk lookup trail name = false then some .denied
  else if longestName < name.bytes.length then some .nameTooLong
  else none

/-- Follows steps from the directory at the end of a trail. With `follow`, a link at the end is
followed too. Also gives how many links may still be followed. -/
def walk (tree : FileTree) (lookup : Lookup) (follow : Bool) (links : Nat) (trail : Trail)
    (steps : List Move) : Except PathError (Target × Nat) :=
  match steps with
  | [] => .ok (.present trail.place (.directory (tree.entriesAt trail)), links)
  | .halt :: rest => tree.walk lookup follow links trail rest
  | .stay :: rest =>
    if tree.mayTurn lookup trail then tree.walk lookup follow links trail rest else .error .denied
  | .up :: rest =>
    if tree.mayTurn lookup trail then tree.walk lookup follow links trail.tail rest
    else .error .denied
  | .down name :: rest =>
    match tree.askFault? lookup trail name with
    | some e => .error e
    | none =>
      match Assoc.find? name (tree.entriesAt trail) with
      | none => if rest.isEmpty then .ok (.absent trail.place name, links) else .error .notFound
      | some (.directory entries) =>
        if lookup.refuses trail name (demandDirectory rest) then .error .nameTooLong
        else tree.walk lookup follow links ((name, entries) :: trail) rest
      | some (.file content) =>
        if rest.isEmpty then .ok (.present (trail.place ++ [name]) (.file content), links)
        else .error .notDirectory
      | some (.link target) =>
        if rest.isEmpty ∧ follow = false then
          .ok (.present (trail.place ++ [name]) (.link target), links)
        else
          match links with
          | 0 => .error .tooManyLinks
          | links + 1 =>
            -- The target is followed from the directory that holds the link, then what is left.
            tree.walk lookup follow links (if target.isAbsolute then [] else trail)
              (moves target ++ rest)
termination_by (links, steps.length)

/-- Why a path cannot be followed whatever the tree holds, if so. -/
def textFault? (p : Path) : Option PathError :=
  if p.bytes.contains 0 then some .zeroByte
  else if p.bytes = [] then some .notFound
  else if isTooLong p then some .nameTooLong
  else none

/-- What a path leads to, seen from a working directory, with its components found as asked. -/
def resolveBy (lookup : Lookup) (tree : FileTree) (follow : Bool) (here : Place) (p : Path) :
    Except PathError (Target × Nat) :=
  match textFault? p with
  | some e => .error e
  | none =>
    tree.walk lookup follow mostLinks (if p.isAbsolute then [] else tree.trailTo here) (moves p)

/-- What a path leads to, seen from a working directory. -/
def resolve (tree : FileTree) (follow : Bool) (here : Place) (p : Path) :
    Except PathError (Target × Nat) :=
  tree.resolveBy .direct follow here p

/-- The node at the end of a path and its place. -/
def find? (tree : FileTree) (follow : Bool) (here : Place) (p : Path) :
    Except PathError (Place × Node) :=
  match tree.resolve follow here p with
  | .ok (.present place node, _) => .ok (place, node)
  | .ok (.absent _ _, _) => .error .notFound
  | .error e => .error e

/-! ## Asking about paths -/

/-- Whether a path leads to a directory. -/
def isDirectory (tree : FileTree) (here : Place) (p : Path) : Bool :=
  match tree.find? true here p with
  | .ok (_, .directory _) => true
  | _ => false

/-- Whether a path leads to a file. -/
def isFile (tree : FileTree) (here : Place) (p : Path) : Bool :=
  match tree.find? true here p with
  | .ok (_, .file _) => true
  | _ => false

/-- The absolute path, without links, of what a path leads to. -/
def canonical? (tree : FileTree) (here : Place) (p : Path) : Except PathError Path :=
  match tree.resolveBy .canonical true here p with
  | .error e => .error e
  | .ok (.present place _, _) => .ok (pathOf place)
  | .ok (.absent _ _, _) => .error .notFound

/-- The text of the file that a path leads to, if it may be read. -/
def readText (tree : FileTree) (here : Place) (p : Path) : Except PathError String :=
  match tree.find? true here p with
  | .error e => .error e
  | .ok (place, node) =>
    if tree.mayRead place = false then .error .denied
    else
      match node with
      | .file content =>
        match String.fromUTF8? content with
        | some text => .ok text
        | none => .error .notText
      | .directory _ => .error .isDirectory
      | .link _ => .error .notFound

end ExportDiff.FileTree
