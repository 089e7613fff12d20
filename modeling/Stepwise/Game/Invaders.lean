import Stepwise.Game.Environment
import Stepwise.Random.Xorshift
import Stepwise.Text.Quoted

/-!
# Invaders

A duel between a ship on the bottom row and one alien that comes down from the top
row.  In each tick the ship acts first.  It may move by one column, which fails at
a wall, or shoot, which wins the game if the alien is in the same column and fails
otherwise.  Then the alien moves.  It turns round with a chance of one in four and
at a wall, goes one column in its direction, and comes down one row whenever the
tick is a multiple of the board's `descendEvery`.  The game is lost when the alien
reaches the bottom row or when the ticks run out.  A finished game does not change
any more.

All numbers are 64-bit words, as the board may be given with any field values.
`Board.effective` replaces fields that make no sense by the standard board's.
-/

namespace Stepwise

/-- The settings of a board. -/
structure Board where
  /-- The number of columns. -/
  width : Int64
  /-- The number of rows. -/
  height : Int64
  /-- The alien comes down at every multiple of this tick. -/
  descendEvery : Int64
  /-- The number of ticks after which the game is lost. -/
  maxTicks : Int64
  /-- The seed of the random source. -/
  seed : Int64
deriving DecidableEq, Repr

namespace Board

/-- The board used when nothing is said. -/
def standard : Board := ⟨11, 8, 3, 200, 1⟩

/-- The board with the standard's values for fields that are too small.  Every seed
is fine. -/
def effective (b : Board) : Board where
  width := if b.width ≤ 0 then standard.width else b.width
  height := if b.height ≤ 1 then standard.height else b.height
  descendEvery := if b.descendEvery ≤ 0 then standard.descendEvery else b.descendEvery
  maxTicks := if b.maxTicks ≤ 0 then standard.maxTicks else b.maxTicks
  seed := b.seed

end Board

/-- A duel in progress. -/
structure Duel where
  /-- The board, with sensible values. -/
  board : Board
  /-- The random source. -/
  source : Xorshift
  /-- The column of the ship. -/
  ship : Int64
  /-- The column of the alien. -/
  alienX : Int64
  /-- The row of the alien, counted from the top. -/
  alienY : Int64
  /-- The direction of the alien, one or minus one. -/
  heading : Int64
  /-- The number of ticks played. -/
  ticks : Int64
  /-- Is the game over? -/
  finished : Bool
  /-- Has the ship won? -/
  won : Bool
deriving DecidableEq, Repr

namespace Duel

/-- The start of a duel on a board whose values make sense.  The ship is in the
middle, the column and the direction of the alien are drawn. -/
def onBoard (b : Board) : Duel :=
  let (column, source) := (Xorshift.seeded b.seed).drawBelow b.width.toUInt64
  let (side, source) := source.drawBelow 2
  { board := b, source, ship := b.width / 2, alienX := column.toInt64, alienY := 0,
    heading := if side = 0 then -1 else 1, ticks := 0, finished := false, won := false }

/-- A new duel. -/
def new (b : Board) : Duel := onBoard b.effective

/-- The same board from the start. -/
def reset (g : Duel) : Duel := onBoard g.board

/-- The horizontal distance from the ship to the alien. -/
def distanceX (g : Duel) : Int64 := g.alienX - g.ship

/-- The number of rows between the alien and the bottom row. -/
def distanceY (g : Duel) : Int64 := g.board.height - 1 - g.alienY

/-- The alien's new column and direction, after it turned or not.  It stays on the
board, and on a board of one column it stays where it is. -/
def alienStep (width column heading : Int64) : Int64 × Int64 :=
  if 1 < width then
    let next := column + heading
    if next < 0 || width ≤ next then (column + -heading, -heading) else (next, heading)
  else (column, heading)

/-- The alien's part of a tick. -/
def moveAlien (g : Duel) : Duel :=
  let (turn, source) := g.source.drawBelow 4
  let (column, heading) :=
    alienStep g.board.width g.alienX (if turn = 0 then -g.heading else g.heading)
  { g with
    source, heading, alienX := column
    alienY := if g.ticks % g.board.descendEvery = 0 then g.alienY + 1 else g.alienY }

/-- The end of a tick: the game is over when the alien has landed or no tick is left. -/
def judge (g : Duel) : Duel :=
  { g with
    finished := g.finished || g.board.height - 1 ≤ g.alienY || g.board.maxTicks ≤ g.ticks }

/-- The ship's part of a tick, unless it hits: does it succeed, and where is the
ship then? -/
def steer (g : Duel) : Action → Bool × Int64
  | .none => (true, g.ship)
  | .move .left => if 0 < g.ship then (true, g.ship - 1) else (false, g.ship)
  | .move .right => if g.ship < g.board.width - 1 then (true, g.ship + 1) else (false, g.ship)
  | .move .shoot => (false, g.ship)
  | .other _ => (false, g.ship)

/-- Does this action hit the alien? -/
def hits (g : Duel) (a : Action) : Bool := a = .move .shoot && g.alienX = g.ship

/-- Play one tick. -/
def advance (a : Action) (g : Duel) : Bool × Duel :=
  if g.finished then (false, g)
  else
    let g := { g with ticks := g.ticks + 1 }
    if g.hits a then (true, { g with finished := true, won := true })
    else
      let (ok, ship) := g.steer a
      (ok, ({ g with ship } : Duel).moveAlien.judge)

/-- The number of ticks within which an effective board's duel ends. -/
def horizon (b : Board) : Nat :=
  min b.maxTicks.toInt.toNat (b.descendEvery.toInt * (b.height.toInt - 1)).toNat

/-- A one-line summary of a duel. -/
def text (g : Duel) : String :=
  "tick=" ++ toString g.ticks ++ " ship=" ++ toString g.ship
    ++ " alien=(" ++ toString g.alienX ++ "," ++ toString g.alienY ++ ")"
    ++ " finished=" ++ Text.flag g.finished ++ " won=" ++ Text.flag g.won

end Duel

/-- Duels as an environment.  Reading a distance changes nothing. -/
def invaders : Environment Duel where
  advance := Duel.advance
  distanceX g := (g.distanceX, g)
  distanceY g := (g.distanceY, g)
  finished := Duel.finished
  won := Duel.won

end Stepwise
