import Stepwise.Game.Environment
import Stepwise.Machine.Frame
import Stepwise.Machine.Stack

/-!
# Events

Every step of a machine does one thing, and an event says which.  Two kinds of
event charge a tick of the game: a move of the agent, and the end of a round.  The
others move the evaluation on while the game stands still.

An event carries the values that the step stored.  So the events of a run are enough
to build the stack again without the game.
-/

namespace Stepwise

/-- What one step did. -/
inductive Event where
  /-- A round began with the frame of the whole program. -/
  | start (program : Form)
  /-- A frame for an operand that is a form was added. -/
  | enter (form : Form)
  /-- The agent moved. -/
  | act (move : Move) (ok : Bool)
  /-- A sensor was read. -/
  | observe (sensor : Sensor) (value : Int64)
  /-- An operand was left out. -/
  | skip (operand : Node)
  /-- The result of a form was computed. -/
  | resolve (form : Form) (result : Value)
  /-- A finished frame handed its result to the frame below. -/
  | handBack (form : Form) (result : Value)
  /-- The frame of the whole program was finished and the round is over. -/
  | round (program : Form) (result : Value)
deriving DecidableEq

namespace Event

/-- The name of an event. -/
def name : Event → String
  | .start .. => "start"
  | .enter .. => "enter"
  | .act .. => "action"
  | .observe .. => "observe"
  | .skip .. => "skip"
  | .resolve .. => "resolve"
  | .handBack .. => "return"
  | .round .. => "round"

/-- The names of the eight kinds of event, in their order. -/
def names : List String :=
  ["start", "enter", "action", "observe", "skip", "resolve", "return", "round"]

/-- The name of the kind with a given number. -/
def nameOfCode (code : Int64) : String :=
  if code < 0 then "unknown" else (names[code.toInt.toNat]?).getD "unknown"

/-- The part of the program that the event is about. -/
def node : Event → Node
  | .start a | .enter a | .resolve a _ | .handBack a _ | .round a _ => .form a
  | .act m _ => (Leaf.move m).node
  | .observe s _ => (Leaf.sense s).node
  | .skip n => n

/-- What the game was told, or nothing. -/
def action : Event → Action
  | .act m _ => .move m
  | _ => .none

/-- The value that the step stored, if any. -/
def value : Event → Value
  | .act _ ok => Value.ofBool ok
  | .observe _ v => some v
  | .resolve _ v | .handBack _ v | .round _ v => v
  | .start _ | .enter .. | .skip .. => none

/-- Does the event charge a tick? -/
def charges : Event → Bool
  | .act .. | .round .. => true
  | _ => false

end Event

/-- One step as it is reported. -/
structure Transition where
  /-- What the step did. -/
  event : Event
  /-- The frame in which it happened.  A round ends outside every frame. -/
  context : Option Frame
  /-- The depth that is reported with the event. -/
  depth : Nat
  /-- The pending frames after the step. -/
  pending : Stack Frame

end Stepwise
