import Stepwise.Game.Environment

/-!
# Scripted games

A scripted game answers from a script and is used to exercise agents.  Whether an
action succeeds and which distances are seen depends on the tick alone, or on the
action, as the script says.  Lists in a script are read cyclically.  The game
ends after a given number of ticks, or never.  It goes on taking actions after
its end.
-/

namespace Stepwise

/-- Who wins a scripted game once it is over. -/
inductive WinRule where
  /-- Nobody. -/
  | never
  /-- The agent. -/
  | always
  /-- The agent, if its last action was this one. -/
  | lastWas (a : Action)
  /-- The agent, if it took this action at least so many times. -/
  | atLeast (a : Action) (n : Int64)
deriving DecidableEq, Repr

/-- A script. -/
structure Script where
  /-- Whether the action of each tick succeeds.  Empty means that it does. -/
  outcomes : List Bool := []
  /-- Actions that always fail. -/
  failing : List Action := []
  /-- The distances seen at each tick.  Empty means zero and zero. -/
  distances : List (Int64 × Int64) := []
  /-- The number of ticks after which the game is over.  It never is, unless this is
  positive. -/
  finishAfter : Int64 := 0
  /-- Who wins. -/
  win : WinRule := .never

namespace Script

/-- The entry of a list for a tick, reading the list cyclically. -/
def cyclic? {α : Type} (xs : List α) (tick : Nat) : Option α := xs[tick % xs.length]?

/-- Does an action succeed at a tick? -/
def succeeds (sc : Script) (tick : Nat) (a : Action) : Bool :=
  !sc.failing.contains a && (cyclic? sc.outcomes tick).getD true

/-- The distances seen at a tick. -/
def distancesAt (sc : Script) (tick : Nat) : Int64 × Int64 :=
  (cyclic? sc.distances tick).getD (0, 0)

end Script

/-- A scripted game in progress. -/
structure Scripted where
  /-- The script. -/
  script : Script
  /-- The actions taken, the last one first. -/
  history : List Action := []
  /-- The number of actions taken. -/
  tick : Nat := 0
  /-- The number of times a distance was read. -/
  observations : Int64 := 0
  /-- The tick is the number of actions. -/
  tick_eq : tick = history.length := by simp

namespace Scripted

/-- The actions, in the order they were taken. -/
def actions (s : Scripted) : List Action := s.history.reverse

/-- Take an action. -/
def act (a : Action) (s : Scripted) : Bool × Scripted :=
  (s.script.succeeds s.tick a,
    { s with history := a :: s.history, tick := s.tick + 1, tick_eq := by simp [s.tick_eq] })

/-- Notice that a distance was read. -/
def noticed (s : Scripted) : Scripted := { s with observations := s.observations + 1 }

/-- Is the game over? -/
def finished (s : Scripted) : Bool :=
  0 < s.script.finishAfter && s.script.finishAfter.toInt ≤ s.tick

/-- Is the game over and won? -/
def won (s : Scripted) : Bool :=
  s.finished && match s.script.win with
    | .never => false
    | .always => true
    | .lastWas a => s.history.head? == some a
    | .atLeast a n => n.toInt ≤ s.history.count a

/-- The number of ticks after which the script repeats itself. -/
def cycle (s : Scripted) : Nat := max 1 s.script.outcomes.length * max 1 s.script.distances.length

/-- A number of ticks within which the game is over.  A game that never is over has come
back to a place where it was before by then, if it is played by rounds of at most
`perRound` ticks: two rounds that begin at the same place of the script are alike. -/
def horizon (perRound : Nat) (s : Scripted) : Nat :=
  if 0 < s.script.finishAfter then s.script.finishAfter.toInt.toNat - s.tick
  else (s.cycle + 2) * perRound

end Scripted

/-- Scripted games as an environment. -/
def scriptedGame : Environment Scripted where
  advance := Scripted.act
  distanceX s := ((s.script.distancesAt s.tick).1, s.noticed)
  distanceY s := ((s.script.distancesAt s.tick).2, s.noticed)
  finished := Scripted.finished
  won := Scripted.won

end Stepwise
