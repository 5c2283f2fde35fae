/-
# ExportDiff.Path — path texts

A path is a string of bytes in which `/` separates components. Repeated separators, a separator at
the end, and a component `.` other than at the front of a relative path mean nothing; what is left
are the components. The file name of a path is its last component, unless that is the root, `.` or
`..`.

An export file is one whose name ends in `.json`. The name, not the path, also says whether it belongs
to a non-production environment. The relative key of a path is the text of its named components with
`/` between them; it pairs the files of two directories.
-/

import ExportDiff.Text.Search
import ExportDiff.Text.Utf8

namespace ExportDiff

/-- A path, as the bytes it is written with. -/
structure Path where
  bytes : List UInt8
  deriving DecidableEq

namespace Path

/-- A component of a path. -/
inductive Component where
  | root
  | current
  | parent
  | name (bytes : List UInt8)
  deriving DecidableEq

def slash : UInt8 := 0x2F

/-- The path with this text. -/
def ofString (s : String) : Path := ⟨Text.toBytes s⟩

/-- The path as text. -/
def display (p : Path) : String := String.ofList (Text.ofBytes p.bytes)

/-! ## Components -/

/-- The parts of a byte string between its separators. -/
def splitAtSlash : List UInt8 → List (List UInt8)
  | [] => [[]]
  | byte :: bytes =>
    match splitAtSlash bytes with
    | [] => [[byte]]
    | part :: parts => if byte = slash then [] :: part :: parts else (byte :: part) :: parts

/-- Whether a path starts at the root. -/
def isAbsolute (p : Path) : Bool := p.bytes.head? == some slash

/-- What a part between separators contributes, other than at the front of a path. -/
def component? (part : List UInt8) : Option Component :=
  if part = [] ∨ part = [0x2E] then none
  else if part = [0x2E, 0x2E] then some .parent
  else some (.name part)

/-- The components of a path. -/
def components (p : Path) : List Component :=
  match splitAtSlash p.bytes with
  | [] => []
  | first :: parts =>
    let front :=
      if p.isAbsolute then [.root] else if first = [0x2E] then [.current]
      else (component? first).toList
    front ++ parts.filterMap component?

/-- Whether two paths have the same components. -/
def same (p q : Path) : Bool := p.components == q.components

/-- The last component, if that is a name. -/
def fileName? (p : Path) : Option (List UInt8) :=
  match p.components.getLast? with
  | some (.name bytes) => some bytes
  | _ => none

/-- The path of an entry of the directory that this path names. -/
def join (p : Path) (name : List UInt8) : Path :=
  if p.bytes.getLast? = some slash ∨ p.bytes = [] then ⟨p.bytes ++ name⟩
  else ⟨p.bytes ++ slash :: name⟩

/-- The path of an entry that is reached from the directory that this path names by going down to
each of some names. -/
def joinAll (p : Path) (names : List (List UInt8)) : Path :=
  if names = [] then p else p.join ([slash].intercalate names)

/-! ## Export files -/

/-- How the name of an export file ends. -/
def exportSuffix : String := ".json"

/-- What the name of a non-production export contains, in letters of either case. No character
beyond ASCII has one of these letters as its small form. -/
def nonProductionMarker : String := "nonprod"

/-- Whether a file name is the name of an export. -/
def isExportName (name : List UInt8) : Bool :=
  exportSuffix.toList.isSuffixOf (Text.ofBytes name)

/-- Whether a file name is the name of a non-production export. -/
def isNonProductionName (name : List UInt8) : Bool :=
  Text.occursIn nonProductionMarker.toList (Text.lower (Text.ofBytes name))

/-- Whether a path is the path of an export. -/
def isExport (p : Path) : Bool := p.fileName?.any isExportName

/-- Whether a path is the path of a non-production export. -/
def isNonProduction (p : Path) : Bool := p.fileName?.any isNonProductionName

/-- The text of names, with separators between them. -/
def keyOfNames (names : List (List UInt8)) : String :=
  String.intercalate "/" (names.map fun name => String.ofList (Text.ofBytes name))

/-- The names among the components of a path. -/
def names (p : Path) : List (List UInt8) :=
  p.components.filterMap fun
    | .name bytes => some bytes
    | _ => none

/-- The key by which the files of two directories are paired. -/
def relativeKey (p : Path) : String := keyOfNames p.names

end Path

end ExportDiff
