import Stepwise.Game.Environment

/-!
# Games with a tripwire

A tripwire counts the ticks of a game and goes off when a given tick begins.  It is
how a game calls off the evaluation that is playing it.
-/

namespace Stepwise

/-- A state of a game together with the number of ticks that were begun. -/
structure Wired (σ : Type) where
  /-- The state of the game. -/
  state : σ
  /-- The number of ticks begun. -/
  begun : Nat := 0

/-- Has the tripwire gone off that is set at tick `limit`?  One that is not set at a
positive tick never does. -/
def Wired.tripped {σ : Type} (limit : Int64) (w : Wired σ) : Bool :=
  0 < limit && limit.toInt ≤ w.begun

/-- A game played with a tripwire, which changes nothing in the game. -/
def Environment.wired {σ : Type} (env : Environment σ) : Environment (Wired σ) where
  advance a w :=
    let (ok, s) := env.advance a w.state
    (ok, ⟨s, w.begun + 1⟩)
  distanceX w :=
    let (d, s) := env.distanceX w.state
    (d, ⟨s, w.begun⟩)
  distanceY w :=
    let (d, s) := env.distanceY w.state
    (d, ⟨s, w.begun⟩)
  finished w := env.finished w.state
  won w := env.won w.state

end Stepwise
