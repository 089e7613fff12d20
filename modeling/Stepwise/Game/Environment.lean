import Stepwise.Tree.Vocabulary

/-!
# Games seen by an agent

A game advances by ticks.  In each tick the agent takes one *action*, which may be
to do nothing, and learns whether it succeeded.  Between ticks the agent may read
two distances, as often as it likes.

An `Environment σ` is a game with states of type `σ`.  Reading a distance returns a
new state as well, since a game may notice that it was read.  Asking whether the
game is finished or won changes nothing.
-/

namespace Stepwise

/-- What happens in one tick. -/
inductive Action where
  /-- Nothing. -/
  | none
  /-- A move of the agent. -/
  | move (m : Move)
  /-- A number that stands for no action of the vocabulary. -/
  | other (code : Int64)
deriving DecidableEq, Repr

namespace Action

/-- The action with a given number: 0 is nothing, 1 to 3 are the moves. -/
def ofCode : Int64 → Action
  | 0 => .none
  | 1 => .move .left
  | 2 => .move .right
  | 3 => .move .shoot
  | code => .other code

/-- The name of an action. -/
def name : Action → String
  | .none => "none"
  | .move m => m.name
  | .other _ => "unknown"

/-- The action with a given name. -/
def ofName? : String → Option Action
  | "none" => some .none
  | "left" => some (.move .left)
  | "right" => some (.move .right)
  | "shoot" => some (.move .shoot)
  | _ => Option.none

end Action

/-- A game with states of type `σ`. -/
structure Environment (σ : Type) where
  /-- Play one tick with an action and say whether it succeeded. -/
  advance : Action → σ → Bool × σ
  /-- Read the horizontal distance. -/
  distanceX : σ → Int64 × σ
  /-- Read the vertical distance. -/
  distanceY : σ → Int64 × σ
  /-- Is the game over? -/
  finished : σ → Bool
  /-- Has the agent won? -/
  won : σ → Bool

/-- Read a sensor. -/
def Environment.read {σ : Type} (env : Environment σ) : Sensor → σ → Int64 × σ
  | .distX, s => env.distanceX s
  | .distY, s => env.distanceY s

end Stepwise
