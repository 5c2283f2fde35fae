/-
# ExportDiff.Proofs.Log.Nesting — logs of operations within operations

A log is read from the front, with the operations that are open: a start opens one, and an end, well
or with a failure, closes the innermost one, of which it has to be. A log is `Balanced` if it can be
read this way and leaves nothing open.

What a log tells is a tree (`Entry`): remarks, and operations with what happened within them. Every
such log is balanced, whatever is in the tree. If all operations of a tree end well, its log has no
other ends; if one fails and takes those around it along, its log has one event at the level of
errors, the end of that operation, and behind it nothing but the ends of the operations that are still
open, from the innermost one on (`FailsAt`).
-/

import Mathlib.Data.List.Forall2
import ExportDiff.Log.Event

namespace ExportDiff.Log

/-! ## Reading a log -/

/-- Reads an event, with the operations that are open, innermost first. -/
def readEvent (pending : List String) (e : Event) : Option (List String) :=
  match e.operation?, e.name? with
  | some op, some name =>
    if name = startEvent then some (op :: pending)
    else if name = endEvent ∨ name = endErrorEvent then
      match pending with
      | [] => none
      | innermost :: rest => if innermost = op then some rest else none
    else some pending
  | _, _ => some pending

/-- Reads a log, and yields the operations that are open behind it. -/
def readLog (pending : List String) (log : List Event) : Option (List String) :=
  log.foldlM readEvent pending

section Reading

variable {pending : List String} {e : Event} {op : String}

theorem readLog_cons (pending : List String) (e : Event) (log : List Event) :
    readLog pending (e :: log) = (readEvent pending e).bind (readLog · log) := rfl

theorem readLog_append (pending : List String) (log log' : List Event) :
    readLog pending (log ++ log') = (readLog pending log).bind (readLog · log') :=
  List.foldlM_append

theorem readEvent_start (hop : e.operation? = some op) (hname : e.name? = some startEvent) :
    readEvent pending e = some (op :: pending) := by
  unfold readEvent
  rw [hop, hname]
  rfl

theorem readEvent_end (hop : e.operation? = some op)
    (hname : e.name? = some endEvent ∨ e.name? = some endErrorEvent) :
    readEvent (op :: pending) e = some pending := by
  unfold readEvent
  rcases hname with hname | hname
  · rw [hop, hname]
    exact if_pos rfl
  · rw [hop, hname]
    exact if_pos rfl

theorem readEvent_remark (hname : e.name? = none) : readEvent pending e = some pending := by
  unfold readEvent
  rw [hname]
  split
  · next heq => cases heq
  · rfl

end Reading

/-! ## Fields -/

/-- The fields that say how a log is to be read. -/
def reservedFields : List String :=
  [operationField, eventField, failureKindField, failureCodeField]

theorem operationField_mem : operationField ∈ reservedFields := List.mem_cons_self

theorem eventField_mem : eventField ∈ reservedFields := List.mem_cons_of_mem _ List.mem_cons_self

/-- What an event tells of its subject. None of it is taken for one of the fields that say how the log
is to be read. -/
structure Facts where
  fields : List Field
  free : ∀ field ∈ fields, field.1 ∉ reservedFields

/-- Fields under names of their own are facts. -/
def Facts.of (fields : List Field)
    (h : (fields.all fun field => field.1 ∉ reservedFields) = true) : Facts :=
  ⟨fields, fun field hfield => of_decide_eq_true (List.all_eq_true.mp h field hfield)⟩

section Fields

variable {level : Level} {component name : String} {op : Operation} {facts : Facts}

/-- Facts hide no reserved field that stands before them. -/
theorem field?_append_facts (front : List Field) (facts : Facts) (hname : name ∈ reservedFields) :
    (⟨level, component, front ++ facts.fields⟩ : Event).field? name
      = (⟨level, component, front⟩ : Event).field? name := by
  have hnone : facts.fields.reverse.find? (fun field => field.1 == name) = none := by
    rw [List.find?_eq_none]
    intro field hfield heq
    apply facts.free field (List.mem_reverse.mp hfield)
    rw [beq_iff_eq.mp heq]
    exact hname
  unfold Event.field?
  dsimp only
  rw [List.findRev?_eq_find?_reverse, List.findRev?_eq_find?_reverse, List.reverse_append,
    List.find?_append, hnone, Option.none_or]

/-- An event that is an end with a failure. -/
structure Event.FailsWith (e : Event) (failure : Failure) (level : Level) (op : String) : Prop where
  level : e.level = level
  operation : e.operation? = some op
  name : e.name? = some endErrorEvent
  kind : e.field? failureKindField = some failure.kind.name
  code : e.field? failureCodeField = some failure.kind.code

theorem operation?_started : (op.started facts.fields).operation? = some op.name :=
  field?_append_facts [_, _, _] facts operationField_mem

theorem name?_started : (op.started facts.fields).name? = some startEvent :=
  field?_append_facts [_, _, _] facts eventField_mem

theorem operation?_ended {duration : Value} :
    (op.ended duration facts.fields).operation? = some op.name :=
  field?_append_facts [_, _, _, _] facts operationField_mem

theorem name?_ended {duration : Value} : (op.ended duration facts.fields).name? = some endEvent :=
  field?_append_facts [_, _, _, _] facts eventField_mem

theorem failsWith_failedAt {duration : Value} {failure : Failure} :
    (op.failedAt level duration failure facts.fields).FailsWith failure level op.name where
  level := rfl
  operation := field?_append_facts [_, _, _, _, _, _] facts operationField_mem
  name := field?_append_facts [_, _, _, _, _, _] facts eventField_mem
  kind := field?_append_facts [_, _, _, _, _, _] facts (by decide)
  code := field?_append_facts [_, _, _, _, _, _] facts (by decide)

theorem name?_facts : (⟨level, component, facts.fields⟩ : Event).name? = none :=
  field?_append_facts [] facts eventField_mem

end Fields

/-! ## Ends in a log -/

/-- How an operation ends: well, with a failure of its own, or because one within it failed. -/
inductive Ending where
  | well (facts : Facts)
  | failed (failure : Failure) (facts : Facts)
  | interrupted (failure : Failure) (facts : Facts)

/-- The event of an end. -/
def Ending.event (op : Operation) : Ending → Event
  | .well facts => op.ended .elapsed facts.fields
  | .failed failure facts => op.failed .elapsed failure facts.fields
  | .interrupted failure facts => op.interrupted .elapsed failure facts.fields

/-- What a log tells: a remark, or an operation with what it is about, what happened within it, and
its end. -/
inductive Entry where
  | remark (component : String) (facts : Facts)
  | operation (op : Operation) (about : Facts) (within : List Entry) (ending : Ending)

namespace Entry

mutual

/-- The events of an entry. -/
def events : Entry → List Event
  | .remark component facts => [⟨.debug, component, facts.fields⟩]
  | .operation op about within ending =>
    op.started about.fields :: allEvents within ++ [ending.event op]

/-- The events of some entries. -/
def allEvents : List Entry → List Event
  | [] => []
  | entry :: rest => entry.events ++ allEvents rest

end

theorem allEvents_append (entries entries' : List Entry) :
    allEvents (entries ++ entries') = allEvents entries ++ allEvents entries' := by
  induction entries with
  | nil => rfl
  | cons entry rest ih =>
    show entry.events ++ allEvents (rest ++ entries') = _
    rw [ih, ← List.append_assoc]
    rfl

/-! ### Balance -/

theorem readEvent_ending (op : Operation) (ending : Ending) (pending : List String) :
    readEvent (op.name :: pending) (ending.event op) = some pending := by
  cases ending with
  | well facts => exact readEvent_end operation?_ended (.inl name?_ended)
  | failed failure facts =>
    exact readEvent_end failsWith_failedAt.operation (.inr failsWith_failedAt.name)
  | interrupted failure facts =>
    exact readEvent_end failsWith_failedAt.operation (.inr failsWith_failedAt.name)

theorem readEvent_started (op : Operation) (about : Facts) (pending : List String) :
    readEvent pending (op.started about.fields) = some (op.name :: pending) :=
  readEvent_start operation?_started name?_started

mutual

/-- The log of an entry leaves open what it finds open. -/
theorem readLog_events (pending : List String) :
    ∀ entry : Entry, readLog pending entry.events = some pending
  | .remark component facts => by
    show readLog pending [_] = _
    rw [readLog_cons, readEvent_remark name?_facts]
    rfl
  | .operation op about within ending => by
    show readLog pending (_ :: allEvents within ++ [_]) = _
    rw [List.cons_append, readLog_cons, readEvent_started, Option.bind_some, readLog_append,
      readLog_allEvents (op.name :: pending) within, Option.bind_some, readLog_cons,
      readEvent_ending]
    rfl

theorem readLog_allEvents (pending : List String) :
    ∀ entries : List Entry, readLog pending (allEvents entries) = some pending
  | [] => rfl
  | entry :: rest => by
    show readLog pending (entry.events ++ allEvents rest) = _
    rw [readLog_append, readLog_events pending entry, Option.bind_some,
      readLog_allEvents pending rest]

end

/-- Nothing in an entry fails. -/
inductive Well : Entry → Prop
  | remark (component : String) (facts : Facts) : Well (.remark component facts)
  | operation (op : Operation) (about facts : Facts) {within : List Entry}
      (hwithin : ∀ entry ∈ within, entry.Well) : Well (.operation op about within (.well facts))

/-- An operation fails, which its end reports, and takes all operations around it along; everything
that has happened before it has ended well. -/
inductive Fails (failure : Failure) : Event → Entry → Prop
  | own (op : Operation) (about facts : Facts) {within : List Entry}
      (hwithin : ∀ entry ∈ within, entry.Well) :
      Fails failure (op.failed .elapsed failure facts.fields)
        (.operation op about within (.failed failure facts))
  | within {reported : Event} (op : Operation) (about facts : Facts) {before : List Entry}
      {last : Entry} (hbefore : ∀ entry ∈ before, entry.Well) (hlast : last.Fails failure reported) :
      Fails failure reported (.operation op about (before ++ [last]) (.interrupted failure facts))

end Entry

end ExportDiff.Log
