/-
# ExportDiff.FileTree.Snapshot — a file tree as text

A snapshot lists what a tree holds, one JSON object a line: `path`, or `path_hex` for a path that is
no text, says where it is; and `text` or `hex` gives the content of a file, `target` the path that a
symbolic link points to. A line without any of these stands for a directory. Directories on the way
to an entry need no line of their own, and paths are relative to the top of the tree.
-/

import ExportDiff.FileTree.Edit
import ExportDiff.Json.Reader.Value
import ExportDiff.Text.Hex

namespace ExportDiff.FileTree

/-- What a line of a snapshot says about its path. -/
inductive Description where
  | file (content : ByteArray)
  | link (target : Path)
  | directory

/-- The text of a member. -/
def textOf? (line : Json) (name : String) : Option String := (line.member? name).bind Json.text?

/-- The bytes of a member that holds hexadecimal digits. -/
def hexOf? (line : Json) (name : String) : Option (List UInt8) :=
  (textOf? line name).bind fun s => Text.hexBytes? s.toList

/-- The path that a line is about. -/
def pathOfLine? (line : Json) : Option Path :=
  ((hexOf? line "path_hex").map Path.mk).or ((textOf? line "path").map Path.ofString)

/-- The content that a line gives a file. -/
def contentOfLine? (line : Json) : Option ByteArray :=
  ((hexOf? line "hex").map fun bytes => ⟨bytes.toArray⟩).or
    ((textOf? line "text").map String.toByteArray)

/-- What a line says. -/
def Description.ofLine (line : Json) : Description :=
  match contentOfLine? line, textOf? line "target" with
  | some content, _ => .file content
  | none, some target => .link (Path.ofString target)
  | none, none => .directory

/-- Adds to a tree what a line says about a path. -/
def add (tree : FileTree) (p : Path) : Description → Outcome
  | .file content => tree.write [] p content
  | .directory => tree.makeDirectories [] p
  | .link target =>
    match tree.makeDirectories [] (parent p) with
    | (tree, some e) => (tree, some e)
    | (tree, none) => tree.makeLink [] p target

/-- Adds a line of a snapshot to a tree, or says what is wrong with the line. -/
def addLine (tree : FileTree) (line : String) : Except String FileTree :=
  match Json.parse line with
  | .error e => .error e.message
  | .ok line =>
    match pathOfLine? line with
    | none => .error "no path"
    | some p =>
      match tree.add p (.ofLine line) with
      | (tree, none) => .ok tree
      | (_, some e) => .error (p.display ++ ": " ++ e.message)

/-- The tree that the lines of a snapshot describe. -/
def ofSnapshot (lines : List String) : Except String FileTree := lines.foldlM addLine empty

end ExportDiff.FileTree
