import Stepwise.Game.Environment

/-!
# Recorded games

Any game can be played with a recorder, which keeps every action and passes it on.
The game itself does not notice: reading, finishing and winning are the inner
game's.
-/

namespace Stepwise

/-- A state of a game together with the actions taken so far. -/
structure Recorded (σ : Type) where
  /-- The state of the game. -/
  state : σ
  /-- The actions, the last one first. -/
  history : List Action := []

namespace Recorded

variable {σ : Type}

/-- The actions, in the order they were taken. -/
def actions (r : Recorded σ) : List Action := r.history.reverse

/-- How often an action was taken. -/
def count (r : Recorded σ) (a : Action) : Nat := r.history.count a

end Recorded

/-- A game played with a recorder. -/
def Environment.recorded {σ : Type} (env : Environment σ) : Environment (Recorded σ) where
  advance a r :=
    let (ok, s) := env.advance a r.state
    (ok, ⟨s, a :: r.history⟩)
  distanceX r :=
    let (d, s) := env.distanceX r.state
    (d, ⟨s, r.history⟩)
  distanceY r :=
    let (d, s) := env.distanceY r.state
    (d, ⟨s, r.history⟩)
  finished r := env.finished r.state
  won r := env.won r.state

end Stepwise
