/-
# ExportDiff.CommandLine.Arguments — what the words of a command line ask for

A command line names two directories, the base and the head. Options stand before, between and after
them; the value of an option is the next word, or stands behind `=` in the same word. After a word
`--` every word names a directory. Fields to ignore may be given any number of times, every other
option once.

Words are read from the front, and reading ends at the first one that cannot be carried out, or that
asks for help.
-/

import ExportDiff.Log.Filter
import ExportDiff.Path
import ExportDiff.Report
import ExportDiff.Text.Quoted

namespace ExportDiff.CommandLine

/-! ## Options -/

/-- The options, all of which take a value. -/
inductive Setting where
  | ignoreField
  | maxPrinted
  | logFormat
  deriving DecidableEq, Repr

/-- The word that an option is given by. -/
def Setting.word : Setting → String
  | .ignoreField => "--ignore-field"
  | .maxPrinted => "--max-printed"
  | .logFormat => "--log-format"

/-- The option with this word. -/
def Setting.ofWord? (word : String) : Option Setting :=
  [ignoreField, maxPrinted, logFormat].find? (·.word == word)

/-- The profile that a log format stands for. -/
def profile? (format : String) : Option Log.Profile :=
  if format = "development" then some .development
  else if format = "production" then some .production
  else none

/-! ## What is wrong with a command line -/

/-- Why a command line is rejected. -/
inductive Misuse where
  | unknownOption (word : String)
  | missingValue (setting : Setting)
  | invalidValue (setting : Setting) (value : String)
  | repeated (setting : Setting)
  | emptyDirectory
  | extraDirectory (word : String)
  | missingDirectory (name : String)
  deriving DecidableEq, Repr

/-- The wording of a rejection. -/
def Misuse.message : Misuse → String
  | .unknownOption word => "unknown option " ++ Text.quoted word
  | .missingValue setting => setting.word ++ " needs a value"
  | .invalidValue setting value => Text.quoted value ++ " is no value for " ++ setting.word
  | .repeated setting => setting.word ++ " is given twice"
  | .emptyDirectory => "a directory has an empty name"
  | .extraDirectory word => "unexpected argument " ++ Text.quoted word
  | .missingDirectory name => "the " ++ name ++ " directory is not given"

/-! ## Kinds of words -/

/-- What a word is, before the first `--`. -/
inductive Word where
  /-- The name of a directory, or a value. -/
  | plain
  /-- Only directories follow. -/
  | separator
  | help
  /-- An option whose value is the next word. -/
  | opening (setting : Setting)
  /-- An option with its value. -/
  | assigning (setting : Setting) (value : String)
  | unknown
  deriving DecidableEq, Repr

/-- The kind of a word that starts with two dashes. -/
def Word.ofLong (word : String) : Word :=
  match word.toList.span (· ≠ '=') with
  | (name, []) =>
    if name = ['-', '-'] then .separator
    else if String.ofList name = "--help" then .help
    else (Setting.ofWord? (String.ofList name)).elim .unknown .opening
  | (name, _ :: value) =>
    (Setting.ofWord? (String.ofList name)).elim .unknown fun setting =>
      .assigning setting (String.ofList value)

/-- The kind of a word. A single dash is plain; among the letters after a single dash, a leading `h`
asks for help. -/
def Word.ofString (word : String) : Word :=
  match word.toList with
  | '-' :: '-' :: _ => ofLong word
  | '-' :: 'h' :: _ => .help
  | '-' :: _ :: _ => .unknown
  | _ => .plain

/-! ## Reading -/

/-- What a command line asks for. -/
structure Arguments where
  base : Path
  head : Path
  /-- The fields to ignore, as often and in the order in which they are given. -/
  ignored : List String
  maxPrinted : Nat
  profile : Log.Profile

/-- Why the words of a command line are not carried out as a comparison. -/
inductive Stop where
  | help
  | misuse (why : Misuse)
  deriving DecidableEq, Repr

/-- What has been read of a command line. -/
structure Collected where
  base : Option Path
  head : Option Path
  ignored : List String
  maxPrinted : Option Nat
  profile : Option Log.Profile

namespace Collected

/-- Nothing has been read. -/
def nothing : Collected := ⟨none, none, [], none, none⟩

/-- Takes a word as the name of the next directory. -/
def addDirectory (c : Collected) (word : String) : Except Stop Collected :=
  if word = "" then .error (.misuse .emptyDirectory)
  else if c.base.isNone then .ok { c with base := Path.ofString word }
  else if c.head.isNone then .ok { c with head := Path.ofString word }
  else .error (.misuse (.extraDirectory word))

/-- Gives an option a value. -/
def set (c : Collected) (setting : Setting) (value : String) : Except Stop Collected :=
  let once {α : Type} (old : Option α) (new : Option α) (result : Collected) :
      Except Stop Collected :=
    if old.isSome then .error (.misuse (.repeated setting))
    else if new.isNone then .error (.misuse (.invalidValue setting value))
    else .ok result
  match setting with
  | .ignoreField => .ok { c with ignored := c.ignored ++ [value] }
  | .maxPrinted =>
    let number := Text.natural? value
    once c.maxPrinted number { c with maxPrinted := number }
  | .logFormat =>
    let profile := profile? value
    once c.profile profile { c with profile := profile }

/-- Reads the words after `--`. -/
def readDirectories (c : Collected) : List String → Except Stop Collected
  | [] => .ok c
  | word :: words => (c.addDirectory word).bind fun c => c.readDirectories words

/-- Reads words from the front. -/
def read (c : Collected) : List String → Except Stop Collected
  | [] => .ok c
  | word :: words =>
    match Word.ofString word with
    | .plain => (c.addDirectory word).bind fun c => c.read words
    | .separator => c.readDirectories words
    | .help => .error .help
    | .assigning setting value => (c.set setting value).bind fun c => c.read words
    | .opening setting =>
      match words with
      | [] => .error (.misuse (.missingValue setting))
      | value :: words =>
        if Word.ofString value = .plain then (c.set setting value).bind fun c => c.read words
        else .error (.misuse (.missingValue setting))
    | .unknown => .error (.misuse (.unknownOption word))

/-- The arguments that have been read, both directories being there. -/
def toArguments (c : Collected) : Except Stop Arguments :=
  match c.base, c.head with
  | some base, some head =>
    .ok ⟨base, head, c.ignored, c.maxPrinted.getD Report.defaultMaxItems,
      c.profile.getD .development⟩
  | none, _ => .error (.misuse (.missingDirectory "base"))
  | _, none => .error (.misuse (.missingDirectory "head"))

end Collected

/-- What the words of a command line ask for. -/
def Arguments.ofWords (words : List String) : Except Stop Arguments :=
  (Collected.nothing.read words).bind Collected.toArguments

/-- How the program is used. -/
def usage : String :=
  String.join (["Compares two directories of configuration exports.",
    "",
    "Usage: ccdiff [OPTIONS] <BASE> <HEAD>",
    "",
    "Options:",
    "  --ignore-field <FIELD>  leave a field out of the comparison (repeatable)",
    "  --max-printed <N>       items shown of each list [default: 20]",
    "  --log-format <FORMAT>   development or production [default: development]",
    "  -h, --help              show this text"].map (· ++ "\n"))

end ExportDiff.CommandLine
