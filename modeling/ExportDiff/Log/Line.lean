/-
# ExportDiff.Log.Line — events as lines of text

In production an event is written as one line of JSON, with the values of its fields as JSON values;
in development as one line for people. In tests nothing is written.
-/

import ExportDiff.Json.Printer
import ExportDiff.Log.Filter

namespace ExportDiff.Log

/-- A value as JSON; a number that fits no JSON integer stays text. -/
def Value.toJson : Value → Json
  | .text s => .str s
  | .number n => (Json.Number.ofInt? n).elim (.str (toString n)) .num
  | .flag b => .bool b
  | .elapsed => .num (.ofNat 0)

/-- An event as JSON. -/
def Event.toJson (e : Event) : Json :=
  .obj (Assoc.ofList
    [("level", .str e.level.name),
     ("target", .str e.component),
     ("fields", .obj (Assoc.ofList (e.fields.map fun field => (field.1, field.2.toJson))))])

/-- An event for people. -/
def Event.summary (e : Event) : String :=
  e.level.name ++ " " ++ e.component ++ ":"
    ++ String.join (e.fields.map fun field => " " ++ field.1 ++ "=" ++ field.2.display)

/-- The line that an event is written as. -/
def Profile.line? (profile : Profile) (e : Event) : Option String :=
  match profile with
  | .development => some e.summary
  | .production => some e.toJson.compact
  | .test => none

end ExportDiff.Log
