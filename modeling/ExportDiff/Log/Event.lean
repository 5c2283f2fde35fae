/-
# ExportDiff.Log.Event — what a run reports while it works

An event has a level, the component that it comes from, and named values. Every operation is
bracketed by two events, one when it starts and one when it ends, well or with a failure; both name
the component, the operation and which of the two they are, and the second one says how long the
operation took. Time is measured outside of this library, so an operation of the library itself
leaves it open.
-/

import ExportDiff.Failure

namespace ExportDiff.Log

/-- How serious an event is. -/
inductive Level where
  | error
  | warn
  | info
  | debug
  | trace
  deriving DecidableEq, Repr

/-- The name of a level. -/
def Level.name : Level → String
  | .error => "ERROR"
  | .warn => "WARN"
  | .info => "INFO"
  | .debug => "DEBUG"
  | .trace => "TRACE"

/-- The position of a level, from the most serious one on. -/
def Level.rank : Level → Nat
  | .error => 1
  | .warn => 2
  | .info => 3
  | .debug => 4
  | .trace => 5

/-- A value that an event reports. -/
inductive Value where
  | text (s : String)
  | number (n : Int)
  | flag (b : Bool)
  /-- The time an operation took, for the caller to fill in. -/
  | elapsed
  deriving DecidableEq, Repr

/-- A value as text. -/
def Value.display : Value → String
  | .text s => s
  | .number n => toString n
  | .flag b => toString b
  | .elapsed => "0"

/-- A named value. -/
abbrev Field := String × Value

/-- Something that happened in a component. -/
structure Event where
  level : Level
  component : String
  fields : List Field

/-! ## Names of fields and events -/

def componentField : String := "component"
def operationField : String := "op"
def eventField : String := "event"
def durationField : String := "duration_ms"
def failureKindField : String := "err_kind"
def failureCodeField : String := "err_code"
def messageField : String := "message"

def startEvent : String := "start"
def endEvent : String := "end"
def endErrorEvent : String := "end_error"

/-- The text of a field; of two with one name the later one counts. -/
def Event.field? (e : Event) (name : String) : Option String :=
  (e.fields.findRev? fun field => field.1 == name).map fun field => field.2.display

/-- The operation that an event belongs to. -/
def Event.operation? (e : Event) : Option String := e.field? operationField

/-- Which event of its operation an event is. -/
def Event.name? (e : Event) : Option String := e.field? eventField

/-! ## Operations -/

/-- An operation of a component. -/
structure Operation where
  component : String
  name : String

namespace Operation

/-- An event of an operation. -/
def event (op : Operation) (level : Level) (name : String) (fields : List Field) : Event :=
  ⟨level, op.component,
    (componentField, .text op.component) :: (operationField, .text op.name) ::
      (eventField, .text name) :: fields⟩

/-- An operation starts. -/
def started (op : Operation) (fields : List Field) : Event := op.event .info startEvent fields

/-- An operation ends well. -/
def ended (op : Operation) (duration : Value) (fields : List Field) : Event :=
  op.event .info endEvent ((durationField, duration) :: fields)

/-- An operation ends with a failure. -/
def failedAt (op : Operation) (level : Level) (duration : Value) (failure : Failure)
    (fields : List Field) : Event :=
  op.event level endErrorEvent
    ((durationField, duration) :: (failureKindField, .text failure.kind.name) ::
      (failureCodeField, .text failure.kind.code) :: fields)

/-- An operation ends with a failure of its own. -/
def failed (op : Operation) := op.failedAt .error

/-- An operation ends because one within it failed, which has reported the failure already. -/
def interrupted (op : Operation) := op.failedAt .debug

end Operation

/-! ## Looking events up -/

/-- The events of an operation. -/
def eventsOf (events : List Event) (operation : String) : List Event :=
  events.filter fun e => e.operation? == some operation

/-- Whether an operation has an event of this name. -/
def hasEvent (events : List Event) (operation name : String) : Bool :=
  events.any fun e => e.operation? == some operation && e.name? == some name

/-- The complaint about an event that was expected. -/
def missingEventMessage (events : List Event) (operation name : String) : String :=
  "Expected event op=" ++ operation ++ " event=" ++ name ++ " not found in "
    ++ toString events.length ++ " captured events"

end ExportDiff.Log
