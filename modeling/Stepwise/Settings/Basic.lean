import Stepwise.Fitness.Batch
import Stepwise.Game.Invaders
import Stepwise.Log.Level

/-!
# Settings

The settings shared by everything that evaluates programs on a board.
-/

namespace Stepwise

/-- The settings of an evaluation. -/
structure Settings where
  /-- The board that every evaluation plays on. -/
  game : Board
  /-- The budget of steps of one evaluation. -/
  maxSteps : Int64
  /-- The number of evaluations that may run at once. -/
  concurrency : Int64
  /-- The level from which records are logged, as a text. -/
  logLevel : String
deriving DecidableEq

namespace Settings

/-- The settings used when nothing is said. -/
def standard : Settings where
  game := Board.standard
  maxSteps := Fitness.defaultMaxSteps
  concurrency := 4
  logLevel := "error"

/-- The level from which records are logged. -/
def level (s : Settings) : Except Log.LevelError Log.Level := Log.Level.read s.logLevel

/-- The evaluator that plays a new duel on the board for every program. -/
def evaluator (s : Settings) : Fitness.Evaluator Duel where
  env := invaders
  supply := some fun _ => some (Duel.new s.game)
  maxSteps := s.maxSteps
  concurrency := s.concurrency

end Settings

end Stepwise
