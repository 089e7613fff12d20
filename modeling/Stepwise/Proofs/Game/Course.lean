import Mathlib.Algebra.Group.Int.Defs
import Mathlib.Algebra.Group.Nat.Defs
import Stepwise.Game.Invaders
import Stepwise.Proofs.Machine.Plays

/-!
# A duel takes its course

As long as a duel is not over, each tick brings the alien closer to the ground.  Its row is
the number of ticks divided by the board's `descendEvery`, and it is above the bottom row
(`Duel.InPlay`).  So the ticks played are below the horizon of the board
(`Duel.InPlay.ticks_lt_horizon`), and a duel that is not over has some ticks left
(`Duel.ticksLeft`), of which every tick takes one away.

The words never wrap on the way.  The ticks stay below the board's limit and the row stays
below its height, and both are words.
-/

namespace Stepwise

/-! ## Words that do not wrap -/

theorem toInt_add_of_bounds {x y : Int64} (hle : -2 ^ 63 ≤ x.toInt + y.toInt)
    (hlt : x.toInt + y.toInt < 2 ^ 63) : (x + y).toInt = x.toInt + y.toInt := by
  rw [Int64.toInt_add]
  exact Int.bmod_eq_of_le (by simp; omega) (by simp; omega)

theorem toInt_sub_of_bounds {x y : Int64} (hle : -2 ^ 63 ≤ x.toInt - y.toInt)
    (hlt : x.toInt - y.toInt < 2 ^ 63) : (x - y).toInt = x.toInt - y.toInt := by
  rw [Int64.toInt_sub]
  exact Int.bmod_eq_of_le (by simp; omega) (by simp; omega)

/-- A word that has another one above it can be counted up. -/
theorem toInt_add_one {x y : Int64} (h : x.toInt < y.toInt) : (x + 1).toInt = x.toInt + 1 := by
  have hle := x.le_toInt
  have hlt := y.toInt_lt
  have hone : (1 : Int64).toInt = 1 := rfl
  exact toInt_add_of_bounds (by omega) (by omega)

/-- A word that has another one below it can be counted down. -/
theorem toInt_sub_one {x y : Int64} (h : y.toInt < x.toInt) : (x - 1).toInt = x.toInt - 1 := by
  have hle := y.le_toInt
  have hlt := x.toInt_lt
  have hone : (1 : Int64).toInt = 1 := rfl
  exact toInt_sub_of_bounds (by omega) (by omega)

/-- A quotient grows when the remainder starts anew. -/
theorem succ_ediv {t d : Int} (ht : 0 ≤ t) (hd : 1 ≤ d) :
    (t + 1) / d = if (t + 1) % d = 0 then t / d + 1 else t / d := by
  obtain ⟨t, rfl⟩ := Int.eq_ofNat_of_zero_le ht
  obtain ⟨d, rfl⟩ := Int.eq_ofNat_of_zero_le (Int.le_trans (by decide) hd)
  norm_cast
  rw [Nat.succ_div]
  simp only [Nat.dvd_iff_mod_eq_zero]
  split <;> simp

/-! ## Boards -/

/-- The fields of the board make sense. -/
structure Board.Sensible (b : Board) : Prop where
  width : 1 ≤ b.width.toInt
  height : 2 ≤ b.height.toInt
  descendEvery : 1 ≤ b.descendEvery.toInt
  maxTicks : 1 ≤ b.maxTicks.toInt

/-- A field that is replaced when it is at most `least` is above it afterwards. -/
theorem lt_toInt_of_replaced {x least standard : Int64} (h : least.toInt < standard.toInt) :
    least.toInt < (if x ≤ least then standard else x).toInt := by
  split
  next => exact h
  next hx =>
    rw [Int64.le_iff_toInt_le] at hx
    exact Int.lt_of_not_ge hx

theorem Board.effective_sensible (b : Board) : b.effective.Sensible where
  width := lt_toInt_of_replaced (by decide)
  height := lt_toInt_of_replaced (by decide)
  descendEvery := lt_toInt_of_replaced (by decide)
  maxTicks := lt_toInt_of_replaced (by decide)

/-- The horizon as a whole number. -/
theorem Board.Sensible.horizon_eq {b : Board} (h : b.Sensible) :
    (Duel.horizon b : Int) =
      min b.maxTicks.toInt (b.descendEvery.toInt * (b.height.toInt - 1)) := by
  obtain ⟨-, hheight, hdescend, hmax⟩ := h
  have hproduct : 0 ≤ b.descendEvery.toInt * (b.height.toInt - 1) :=
    Int.mul_nonneg (by omega) (by omega)
  rw [Duel.horizon]
  omega

namespace Duel

variable {g : Duel} {a : Action}

/-! ## One tick -/

theorem advance_of_finished (h : g.finished = true) (a : Action) : advance a g = (false, g) := by
  rw [advance, if_pos h]

theorem advance_of_hit (hopen : g.finished = false) (hhit : g.hits a = true) :
    advance a g = (true, { g with ticks := g.ticks + 1, finished := true, won := true }) := by
  rw [advance, if_neg (by simp [hopen])]
  exact if_pos hhit

theorem advance_of_miss (hopen : g.finished = false) (hmiss : g.hits a = false) :
    advance a g = ((g.steer a).1,
      ({ g with ticks := g.ticks + 1, ship := (g.steer a).2 } : Duel).moveAlien.judge) := by
  rw [advance, if_neg (by simp [hopen])]
  exact if_neg (Bool.eq_false_iff.mp hmiss)

theorem advance_board (a : Action) (g : Duel) : (advance a g).2.board = g.board := by
  cases hopen : g.finished with
  | true => rw [advance_of_finished hopen]
  | false =>
      cases hhit : g.hits a with
      | true => rw [advance_of_hit hopen hhit]
      | false =>
          rw [advance_of_miss hopen hhit]
          rfl

theorem advance_ticks (hopen : g.finished = false) (a : Action) :
    (advance a g).2.ticks = g.ticks + 1 := by
  cases hhit : g.hits a with
  | true => rw [advance_of_hit hopen hhit]
  | false =>
      rw [advance_of_miss hopen hhit]
      rfl

/-- A duel that goes on after a tick was open before, the alien has come down if the tick says
so, and neither the board nor the ticks are used up. -/
theorem advance_open (h : (advance a g).2.finished = false) :
    g.finished = false ∧
      (advance a g).2.alienY =
        (if (g.ticks + 1) % g.board.descendEvery = 0 then g.alienY + 1 else g.alienY) ∧
      ¬ g.board.height - 1 ≤ (advance a g).2.alienY ∧
      ¬ g.board.maxTicks ≤ (advance a g).2.ticks := by
  cases hopen : g.finished with
  | true =>
      rw [advance_of_finished hopen, hopen] at h
      cases h
  | false =>
      cases hhit : g.hits a with
      | true =>
          rw [advance_of_hit hopen hhit] at h
          cases h
      | false =>
          rw [advance_of_miss hopen hhit] at h ⊢
          refine ⟨rfl, rfl, ?_⟩
          simpa [judge, moveAlien, hopen] using h

/-! ## The whole course -/

/-- What holds of a duel that is not over. -/
structure InPlay (g : Duel) : Prop where
  nonneg : 0 ≤ g.ticks.toInt
  ticks_lt : g.ticks.toInt < g.board.maxTicks.toInt
  row : g.alienY.toInt = g.ticks.toInt / g.board.descendEvery.toInt
  row_lt : g.alienY.toInt < g.board.height.toInt - 1

/-- A duel on a board that makes sense, which has not gone on for too long. -/
structure OnCourse (g : Duel) : Prop where
  board : g.board.Sensible
  inPlay : g.finished = false → g.InPlay

theorem InPlay.ticks_lt_horizon (h : g.InPlay) (hboard : g.board.Sensible) :
    g.ticks.toInt < horizon g.board := by
  have hdescend := hboard.descendEvery
  have hlanding : g.ticks.toInt < g.board.descendEvery.toInt * (g.board.height.toInt - 1) := by
    rw [Int.mul_comm, ← Int.ediv_lt_iff_lt_mul (by omega), ← h.row]
    exact h.row_lt
  rw [hboard.horizon_eq]
  exact Int.lt_min.mpr ⟨h.ticks_lt, hlanding⟩

theorem new_onCourse (b : Board) : (Duel.new b).OnCourse where
  board := b.effective_sensible
  inPlay _ := by
    obtain ⟨-, hheight, -, hmax⟩ := b.effective_sensible
    constructor
    case nonneg => exact Int.le_refl 0
    case ticks_lt => exact hmax
    case row => exact (Int.zero_ediv _).symm
    case row_lt =>
      show 0 < b.effective.height.toInt - 1
      omega

/-- The row of the alien after a tick is the quotient after the tick. -/
theorem InPlay.row_succ (h : g.InPlay) (hboard : g.board.Sensible) :
    (if (g.ticks + 1) % g.board.descendEvery = 0 then g.alienY + 1 else g.alienY).toInt =
      (g.ticks.toInt + 1) / g.board.descendEvery.toInt := by
  obtain ⟨hnonneg, hticks, hrow, hrowlt⟩ := h
  have hheight : g.alienY.toInt < g.board.height.toInt := by omega
  have hmod : (g.ticks + 1) % g.board.descendEvery = 0 ↔
      (g.ticks.toInt + 1) % g.board.descendEvery.toInt = 0 := by
    rw [← Int64.toInt_inj, Int64.toInt_mod, toInt_add_one hticks,
      Int.tmod_eq_emod_of_nonneg (by omega)]
    rfl
  rw [succ_ediv hnonneg hboard.descendEvery, ← hrow]
  by_cases hstep : (g.ticks + 1) % g.board.descendEvery = 0
  · rw [if_pos hstep, if_pos (hmod.mp hstep), toInt_add_one hheight]
  · rw [if_neg hstep, if_neg fun hz => hstep (hmod.mpr hz)]

/-- A tick keeps a duel on course. -/
theorem OnCourse.advance (h : g.OnCourse) (a : Action) : (Duel.advance a g).2.OnCourse := by
  have hboard := advance_board a g
  refine ⟨hboard ▸ h.board, fun hafter => ?_⟩
  obtain ⟨hopen, hrow, hlanded, hspent⟩ := advance_open hafter
  have hplay := h.inPlay hopen
  have hticks : (Duel.advance a g).2.ticks.toInt = g.ticks.toInt + 1 := by
    rw [advance_ticks hopen, toInt_add_one hplay.ticks_lt]
  have hheight : (g.board.height - 1).toInt = g.board.height.toInt - 1 :=
    toInt_sub_one (Int.lt_trans hplay.row_lt (by omega))
  rw [Int64.le_iff_toInt_le] at hlanded hspent
  rw [hheight] at hlanded
  constructor
  case nonneg =>
    have hnonneg := hplay.nonneg
    omega
  case ticks_lt =>
    rw [hboard]
    omega
  case row => rw [hrow, hplay.row_succ h.board, hticks, hboard]
  case row_lt =>
    rw [hboard]
    omega

/-- The ticks that a duel can last. -/
def ticksLeft (g : Duel) : Nat := if g.finished then 0 else horizon g.board - g.ticks.toInt.toNat

theorem ticksLeft_new (b : Board) : (Duel.new b).ticksLeft = horizon b.effective := rfl

/-- Every tick of an open duel takes one away from those that are left. -/
theorem OnCourse.ticksLeft_advance_lt (h : g.OnCourse) (hopen : g.finished = false) (a : Action) :
    (Duel.advance a g).2.ticksLeft < g.ticksLeft := by
  have hplay := h.inPlay hopen
  have hlt := hplay.ticks_lt_horizon h.board
  have hnonneg := hplay.nonneg
  have hleft : g.ticksLeft = horizon g.board - g.ticks.toInt.toNat := by
    rw [ticksLeft, hopen]
    rfl
  cases hafter : (Duel.advance a g).2.finished with
  | true =>
      rw [ticksLeft, hafter, if_pos rfl, hleft]
      omega
  | false =>
      rw [ticksLeft, hafter, advance_board, advance_ticks hopen, toInt_add_one hplay.ticks_lt,
        hleft]
      show horizon g.board - (g.ticks.toInt + 1).toNat < _
      omega

end Duel

/-- Duels end. -/
theorem invaders_lasts : invaders.Lasts Duel.OnCourse Duel.ticksLeft where
  read x g := by cases x <;> rfl
  still a g hover := congrArg Prod.snd (Duel.advance_of_finished hover a)
  keeps a g h := h.advance a
  runsDown a g h hopen := h.ticksLeft_advance_lt hopen a

end Stepwise
