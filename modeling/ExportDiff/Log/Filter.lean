/-
# ExportDiff.Log.Filter — which events are written

A filter is a list of directives, separated by commas. A directive is a level, which holds for every
component; or the front of a component's name, with a level after `=` or, without one, for events of
every level. Behind the name, or in place of it, brackets may demand a span, or, in braces, a field;
a field with a value is one of a span. Events happen outside of all spans here. A value is a number
or a pattern.

Blanks belong to names and levels like other characters, but a directive with a level does not begin
with one. Places are counted from the first character that is not blank, while the text of a field is
taken from the directive with its blanks.

Of the directives that apply to an event the one with the longest name decides, of these one that
demands a field, and the later one of two that demand the same: the event is written if it is at
least as serious as the level says. An event to which none applies is not written.
-/

import ExportDiff.Log.Event
import ExportDiff.Pattern.Basic
import ExportDiff.Text.Alphanumeric
import ExportDiff.Text.Natural
import ExportDiff.Text.Number
import ExportDiff.Text.Search
import ExportDiff.Text.Utf8

namespace ExportDiff.Log

/-- What a directive demands of an event besides its component. -/
inductive Demand where
  | nothing
  /-- A field with a name. -/
  | field (name : String)
  /-- To happen within a span. -/
  | span
  deriving DecidableEq, Repr

/-- Events of components whose names start with `target`, as far as they meet a demand, down to a
rank; rank 0 stands for none. -/
structure Directive where
  target : String
  demand : Demand
  rank : Nat
  deriving DecidableEq, Repr

/-- The directives of a filter, in the order given. -/
structure Filter where
  directives : List Directive
  deriving DecidableEq, Repr

/-! ## Reading a filter -/

/-- The rank of the least serious events. -/
def leastRank : Nat := Level.trace.rank

/-- The rank that a level's name stands for, in letters of either case, or its number. -/
def rankOf? (s : String) : Option Nat :=
  match Text.natural? s with
  | some n => if n ≤ leastRank then some n else none
  | none =>
    match s.toLower with
    | "off" => some 0
    | "error" => some Level.error.rank
    | "warn" => some Level.warn.rank
    | "info" => some Level.info.rank
    | "debug" => some Level.debug.rank
    | "trace" => some Level.trace.rank
    | _ => none

/-- Whether a character may be the first one of a directive that is not blank. -/
def startsDirective (c : Char) : Bool :=
  c = '-' || c = ':' || c = '_' || c = '[' || Text.isAlphanumeric c

/-- The text of a field that stands before `rest` in a directive. -/
def fieldText (directive field rest : List Char) : List Char :=
  let blanks := Text.byteCount (directive.takeWhile Text.isSpace)
  let start := Text.byteCount directive - Text.byteCount (field ++ rest)
  Text.takeBytes (Text.byteCount field) (Text.dropBytes (start - blanks) directive)

/-- The demand of a field, within a span or not. A second equals sign ends the value. -/
def Demand.ofField? (within : Bool) (field : List Char) : Option Demand :=
  match field.dropWhile (· ≠ '=') with
  | [] => some (if within then .span else .field (String.ofList field))
  | _ :: rest =>
    let value := rest.takeWhile (· ≠ '=')
    if Text.isNumber value || Pattern.isPattern value then some .span else none

/-- The demand of a directive at the front of the text behind its opening bracket, and the text behind
the closing one. -/
def Demand.parse? (directive cs : List Char) : Option (Demand × List Char) :=
  match cs.span fun c => c ≠ ']' && c ≠ '\x7b' with
  | (_, ']' :: rest) => some (.span, rest)
  | (name, _ :: inner) =>
    match inner.span (· ≠ '\x7d') with
    | ([], _) => none
    | (inside, brace :: ']' :: rest) =>
      let text := fieldText directive inside (brace :: ']' :: rest)
      (Demand.ofField? (name ≠ []) text).map (·, rest)
    | _ => none
  | _ => none

/-- The directive for a target, with the level of a text; the empty text stands for all levels. -/
def Directive.withLevel? (target : List Char) (demand : Demand) (level : List Char) :
    Option Directive :=
  if target.head?.any Text.isSpace then none
  else
    (if level = [] then some leastRank else rankOf? (String.ofList level)).map fun rank =>
      ⟨String.ofList target, demand, rank⟩

/-- The directive of a text between commas, blanks included. -/
def Directive.parse? (s : String) : Option Directive :=
  let cs := s.toList
  if (cs.dropWhile Text.isSpace).head?.any startsDirective = false then none
  else
    match cs.span fun c => c ≠ '=' && c ≠ '[' with
    | (_, []) =>
      match rankOf? s with
      | some rank => some ⟨"", .nothing, rank⟩
      | none => some ⟨s, .nothing, leastRank⟩
    | (target, '[' :: inner) =>
      match Demand.parse? cs inner with
      | some (demand, '=' :: level) => Directive.withLevel? target demand level
      | some (demand, rest) =>
        if rest.all Text.isSpace then some ⟨String.ofList target, demand, leastRank⟩ else none
      | none => none
    | (target, _ :: level) => Directive.withLevel? target .nothing level

/-- The filter of a text, unless a directive of it cannot be read. -/
def Filter.parse? (s : String) : Option Filter :=
  (((s.splitOn ",").filter (· ≠ "")).mapM Directive.parse?).map Filter.mk

/-! ## Applying a filter -/

/-- Whether an event meets a demand. -/
def Demand.metBy (e : Event) : Demand → Bool
  | .nothing => true
  | .field name => e.fields.any fun field => field.1 == name
  | .span => false

/-- Whether a demand is no greater than another one. Of two fields the one with the later name is. -/
def Demand.atMost : Demand → Demand → Bool
  | .field m, .field n => m ≤ n
  | .field _, _ => false
  | _, _ => true

/-- Whether a directive applies to an event. -/
def Directive.appliesTo (d : Directive) (e : Event) : Bool :=
  d.target.toList.isPrefixOf e.component.toList && d.demand.metBy e

/-- Whether a directive says no more about the events it applies to than another one. -/
def Directive.atMost (b d : Directive) : Bool :=
  b.target.length < d.target.length ||
    (b.target.length == d.target.length && b.demand.atMost d.demand)

/-- The directive that decides on an event. -/
def Filter.decisive? (filter : Filter) (e : Event) : Option Directive :=
  filter.directives.foldl
    (fun best d => if d.appliesTo e && best.all (·.atMost d) then some d else best) none

/-- Whether a filter lets an event through. -/
def Filter.allows (filter : Filter) (e : Event) : Bool :=
  (filter.decisive? e).any fun d => e.level.rank ≤ d.rank

/-! ## Profiles -/

/-- The settings for logs that come with the program. -/
inductive Profile where
  /-- Lines for people. -/
  | development
  /-- JSON lines. -/
  | production
  /-- No lines; events are kept for assertions. -/
  | test
  deriving DecidableEq, Repr

/-- The directives of a profile. -/
def Profile.directives : Profile → String
  | .development => "ccdiff_core=warn,ccdiff_cli=warn"
  | .production => "ccdiff_core=info,ccdiff_cli=info"
  | .test => "off"

/-- The filter of a run: the one asked for, if there is one and it can be read, or that of the
profile. -/
def Profile.filter (profile : Profile) (requested : Option String) : Filter :=
  ((requested.bind Filter.parse?).or (Filter.parse? profile.directives)).getD ⟨[]⟩

end ExportDiff.Log
