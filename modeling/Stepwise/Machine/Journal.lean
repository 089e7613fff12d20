import Stepwise.Log.Record
import Stepwise.Machine.Event

/-!
# The journal of a machine

Every step of a machine can be logged, at the level of details.  A record carries
the frame in which the step happened and the values that it stored.
-/

namespace Stepwise

/-- A value in a log record. -/
def Value.datum : Value → Log.Datum
  | some n => .int n
  | none => .text "~"

/-- The fields that describe a frame at a given depth. -/
def Frame.logFields (depth : Nat) (f : Frame) : List (String × Log.Datum) :=
  [("depth", .int (Int64.ofNat depth)), ("scope", .text f.scope.text),
   ("state", .text f.phase.name), ("operand", .int (Int64.ofNat f.operandNumber))]

namespace Event

/-- The message of an event. -/
def logMessage : Event → String
  | .start .. => "start round"
  | .enter .. => "enter"
  | .act .. => "action"
  | .observe .. => "observe"
  | .skip .. => "skip branch"
  | .resolve .. => "resolve"
  | .handBack .. => "return"
  | .round .. => "round completed"

/-- The particulars of an event. -/
def logFields : Event → List (String × Log.Datum)
  | .start .. | .enter .. | .skip .. => []
  | .act m ok => [("action", .text m.name), ("ok", (Value.ofBool ok).datum)]
  | .observe s v => [("name", .text s.name), ("value", .int v)]
  | .resolve _ v | .handBack _ v | .round _ v => [("result", v.datum)]

end Event

/-- The record of one step. -/
def Transition.record (t : Transition) : Log.Record where
  level := Log.Level.debug
  message := t.event.logMessage
  fields :=
    (match t.context with
      | some f => f.logFields t.pending.length
      | none => []) ++ t.event.logFields

end Stepwise
