import Stepwise.Machine.Step

/-!
# Replaying events

The events of a run say everything about the machine that is not the game's: from the
events alone, its frames and its counters can be built up again.  Replaying an event
looks at the frames built so far and at the values that the event carries, and never at
a game.
-/

namespace Stepwise

/-- The part of a machine that its events determine. -/
structure Replay where
  /-- The pending frames, the innermost first. -/
  stack : Stack Frame := []
  /-- The work done. -/
  stats : Stats := {}
deriving DecidableEq

namespace Replay

/-- Change the innermost frame. -/
def onTop (f : Frame → Frame) : Stack Frame → Stack Frame
  | [] => []
  | top :: below => f top :: below

/-- Store a value in the slot of the operand at the cursor and move the cursor on. -/
def fill (v : Value) (f : Frame) : Frame := (f.store f.operandNumber v).passed f.operandNumber

/-- The frames after an event of a machine with the given program. -/
def frames (program : Form) : Event → Stack Frame → Stack Frame
  | .start _, stack => stack.push (Frame.enter program)
  | .enter _, [] => []
  | .enter _, f :: below =>
    match f.scope.operand? f.operandNumber with
    | some (.form a) => Frame.enter a :: f :: below
    | _ => f :: below
  | .act _ ok, stack => onTop (fill (Value.ofBool ok)) stack
  | .observe _ v, stack => onTop (fill (some v)) stack
  | .skip _, stack => onTop (fun f => f.passed f.operandNumber) stack
  | .resolve _ v, stack => onTop (fun f => { f.store 0 v with cursor := .finished }) stack
  | .handBack .., [] => []
  | .handBack .., f :: below => onTop (fill f.result) below
  | .round .., stack => stack.pop.2

/-- The counters after an event. -/
def counters (e : Event) (s : Stats) : Stats :=
  match e with
  | .act .. => s.countStep.countAction
  | .round .. => s.countStep.countRound
  | _ => s.countStep

/-- Replay one event. -/
def event (program : Form) (r : Replay) (e : Event) : Replay :=
  ⟨frames program e r.stack, counters e r.stats⟩

/-- Replay events from the beginning. -/
def events (program : Form) (es : List Event) : Replay := es.foldl (event program) {}

end Replay

end Stepwise
