import Mathlib.Algebra.Order.Group.Unbundled.Int
import Stepwise.Proofs.Game.Outcome
import Stepwise.Proofs.Random.Draw

/-!
# Nobody leaves the board

The ship and the alien stay between the walls of the board, and the alien always goes one way or
the other (`Duel.OnField`).  A wall turns the alien round before it is passed, and a board of
more than one column has room behind it (`Duel.alienStep_onField`).

All columns, rows and ticks lie between zero and some field of the board, so none of the sums
and differences of words that a tick takes can wrap (`Duel.Exact`).
-/

namespace Stepwise

/-! ## Draws -/

theorem toInt_toInt64_of_lt {x : UInt64} (h : x.toNat < 2 ^ 63) : x.toInt64.toInt = x.toNat := by
  have hlt : 2 * x.toBitVec.toNat < 2 ^ 64 := by
    show 2 * x.toNat < 2 ^ 64
    omega
  show x.toBitVec.toInt = _
  rw [BitVec.toInt_eq_toNat_of_lt hlt]
  rfl

/-- A positive word is the same number with or without its sign. -/
theorem toNat_toUInt64_of_pos {n : Int64} (hn : 1 ≤ n.toInt) :
    n.toUInt64.toNat = n.toInt.toNat :=
  Int64.toNat_toUInt64_of_le (Int64.le_iff_toInt_le.mpr (Int.le_trans (by decide) hn))

/-- A column drawn on a board is on the board. -/
theorem toInt_draw {w : Int64} (hw : 1 ≤ w.toInt) (s : Xorshift) :
    0 ≤ (s.drawBelow w.toUInt64).1.toInt64.toInt ∧
      (s.drawBelow w.toUInt64).1.toInt64.toInt < w.toInt := by
  have hwidth := toNat_toUInt64_of_pos hw
  have hpos : 0 < w.toUInt64 := by
    rw [UInt64.lt_iff_toNat_lt, hwidth]
    show 0 < w.toInt.toNat
    omega
  have hlt := UInt64.lt_iff_toNat_lt.mp (Xorshift.drawBelow_lt hpos s)
  have hmax := w.toInt_lt
  rw [hwidth] at hlt
  rw [toInt_toInt64_of_lt (by omega)]
  omega

namespace Duel

variable {g : Duel} {a : Action} {b : Board} {width column heading : Int64}

/-! ## The alien between the walls -/

/-- One way or the other. -/
def IsHeading (heading : Int64) : Prop := heading = 1 ∨ heading = -1

namespace IsHeading

theorem neg (h : IsHeading heading) : IsHeading (-heading) := by
  rcases h with rfl | rfl
  · exact .inr rfl
  · exact .inl rfl

theorem ite {p : Prop} [Decidable p] {left right : Int64} (h : IsHeading left)
    (h' : IsHeading right) : IsHeading (if p then left else right) := by
  split
  · exact h
  · exact h'

theorem toInt (h : IsHeading heading) : heading.toInt = 1 ∨ heading.toInt = -1 := by
  rcases h with rfl | rfl
  · exact .inl rfl
  · exact .inr rfl

theorem toInt_neg (h : IsHeading heading) : (-heading).toInt = -heading.toInt := by
  rcases h with rfl | rfl <;> rfl

end IsHeading

/-- A column of a board of some width. -/
def IsColumn (width column : Int64) : Prop := 0 ≤ column.toInt ∧ column.toInt < width.toInt

/-- The column next to one on the board is a word, also if it is behind a wall. -/
theorem IsColumn.toInt_add (hc : IsColumn width column) (hh : IsHeading heading) :
    (column + heading).toInt = column.toInt + heading.toInt := by
  obtain ⟨hnonneg, hlt⟩ := hc
  have hmax := width.toInt_lt
  rcases hh.toInt with hone | hone
  · exact toInt_add_of_bounds (by omega) (by omega)
  · exact toInt_add_of_bounds (by omega) (by omega)

/-- The alien stays between the walls.  On a board with room it goes one column to one side or the
other, and on a board of one column it stays where it is. -/
theorem alienStep_onField (hc : IsColumn width column) (hh : IsHeading heading)
    {column' heading' : Int64} (h : alienStep width column heading = (column', heading')) :
    IsColumn width column' ∧ IsHeading heading' ∧
      (width.toInt = 1 → column' = column) ∧
      (1 < width.toInt → column'.toInt = column.toInt + 1 ∨ column'.toInt = column.toInt - 1) := by
  have hnext := hc.toInt_add hh
  have hback := hc.toInt_add hh.neg
  rw [hh.toInt_neg] at hback
  have hway := hh.toInt
  have hzero : (0 : Int64).toInt = 0 := rfl
  have hone : (1 : Int64).toInt = 1 := rfl
  obtain ⟨hnonneg, hlt⟩ := hc
  by_cases hwide : 1 < width
  · rw [alienStep, if_pos hwide] at h
    rw [Int64.lt_iff_toInt_lt] at hwide
    by_cases hwall : column + heading < 0 ∨ width ≤ column + heading
    · -- There is a column on the other side, since the board has two at least.
      simp only [hwall, Bool.or_eq_true, decide_eq_true_eq, if_true] at h
      cases h
      rw [Int64.lt_iff_toInt_lt, Int64.le_iff_toInt_le] at hwall
      refine ⟨⟨?_, ?_⟩, hh.neg, ?_, ?_⟩ <;> omega
    · simp only [hwall, Bool.or_eq_true, decide_eq_true_eq, if_false] at h
      cases h
      rw [Int64.lt_iff_toInt_lt, Int64.le_iff_toInt_le] at hwall
      refine ⟨⟨?_, ?_⟩, hh, ?_, ?_⟩ <;> omega
  · rw [alienStep, if_neg hwide] at h
    cases h
    rw [Int64.lt_iff_toInt_lt] at hwide
    exact ⟨⟨hnonneg, hlt⟩, hh, fun _ => rfl, fun hroom => by omega⟩

/-! ## The field -/

/-- The ship and the alien are on the board, and the alien goes one way or the other. -/
structure OnField (g : Duel) : Prop where
  ship : IsColumn g.board.width g.ship
  alien : IsColumn g.board.width g.alienX
  heading : IsHeading g.heading

theorem onBoard_onField (h : b.Sensible) : (onBoard b).OnField where
  ship := by
    have hwidth := h.width
    have hhalf : (b.width / 2).toInt = b.width.toInt.tdiv 2 :=
      Int64.toInt_div_of_ne_right _ _ (by decide)
    show IsColumn b.width (b.width / 2)
    rw [IsColumn, hhalf, Int.tdiv_eq_ediv_of_nonneg (by omega)]
    omega
  alien := toInt_draw h.width _
  heading := .ite (.inr rfl) (.inl rfl)

/-- The ship does not leave the board. -/
theorem steer_isColumn (h : IsColumn g.board.width g.ship) (a : Action) :
    IsColumn g.board.width (g.steer a).2 := by
  obtain ⟨hnonneg, hlt⟩ := h
  have hedge : (g.board.width - 1).toInt = g.board.width.toInt - 1 := toInt_sub_one hlt
  unfold steer
  split
  case h_2 =>
    split
    next hleft =>
      have hpos : (0 : Int64).toInt < g.ship.toInt := Int64.lt_iff_toInt_lt.mp hleft
      have hzero : (0 : Int64).toInt = 0 := rfl
      rw [IsColumn, toInt_sub_one hpos]
      omega
    next => exact ⟨hnonneg, hlt⟩
  case h_3 =>
    split
    next hright =>
      rw [Int64.lt_iff_toInt_lt, hedge] at hright
      rw [IsColumn, toInt_add_one hlt]
      omega
    next => exact ⟨hnonneg, hlt⟩
  all_goals exact ⟨hnonneg, hlt⟩

/-- Where the ship and the alien are after a tick without a hit.  The alien has turned round before
it moves, or not. -/
theorem advance_field (hopen : g.finished = false) (hmiss : g.hits a = false) :
    ∃ turned, (IsHeading g.heading → IsHeading turned) ∧
      (advance a g).2.ship = (g.steer a).2 ∧
      alienStep g.board.width g.alienX turned =
        ((advance a g).2.alienX, (advance a g).2.heading) := by
  rw [advance_of_miss hopen hmiss]
  exact ⟨_, fun h => h.neg.ite h, rfl, rfl⟩

/-- A tick keeps the ship and the alien on the board. -/
theorem OnField.advance (h : g.OnField) (a : Action) : (Duel.advance a g).2.OnField := by
  cases hopen : g.finished with
  | true =>
      rw [advance_of_finished hopen]
      exact h
  | false =>
      cases hhit : g.hits a with
      | true =>
          rw [advance_of_hit hopen hhit]
          exact ⟨h.ship, h.alien, h.heading⟩
      | false =>
          obtain ⟨turned, hturned, hship, hstep⟩ := advance_field hopen hhit
          obtain ⟨hcolumn, hway, -⟩ := alienStep_onField h.alien (hturned h.heading) hstep
          constructor
          case ship =>
            rw [hship, advance_board]
            exact steer_isColumn h.ship a
          case alien =>
            rw [advance_board]
            exact hcolumn
          case heading => exact hway

/-- The alien moves by one column in a tick without a hit, if the board has room, and else never. -/
theorem OnField.alien_moves (h : g.OnField) (a : Action) :
    (g.board.width.toInt = 1 → (Duel.advance a g).2.alienX = g.alienX) ∧
      (1 < g.board.width.toInt → g.finished = false → g.hits a = false →
        (Duel.advance a g).2.alienX.toInt = g.alienX.toInt + 1 ∨
          (Duel.advance a g).2.alienX.toInt = g.alienX.toInt - 1) := by
  cases hopen : g.finished with
  | true => exact ⟨fun _ => by rw [advance_of_finished hopen], nofun⟩
  | false =>
      cases hhit : g.hits a with
      | true => exact ⟨fun _ => by rw [advance_of_hit hopen hhit], nofun⟩
      | false =>
          obtain ⟨turned, hturned, -, hstep⟩ := advance_field hopen hhit
          obtain ⟨-, -, hnarrow, hwide⟩ := alienStep_onField h.alien (hturned h.heading) hstep
          exact ⟨hnarrow, fun hroom _ _ => hwide hroom⟩

theorem OnField.played (h : g.OnField) (actions : List Action) : (g.played actions).OnField := by
  induction actions generalizing g with
  | nil => exact h
  | cons a actions ih => exact ih (h.advance a)

/-! ## Rows, ticks and distances -/

namespace Lawful

theorem ticks_nonneg (h : g.Lawful) : 0 ≤ g.ticks.toInt := by
  cases hover : g.finished with
  | false => exact (h.inPlay hover).nonneg
  | true =>
      cases hwon : g.won with
      | true => exact Int.le_trans (by decide) (h.hit hwon).2.1
      | false =>
          rw [(h.lost hover hwon).1]
          exact Int.natCast_nonneg _

theorem ticks_le_maxTicks (h : g.Lawful) : g.ticks.toInt ≤ g.board.maxTicks.toInt := by
  have hle := h.ticks_le
  rw [h.board.horizon_eq] at hle
  exact Int.le_trans hle (Int.min_le_left _ _)

/-- The alien never passes the bottom row. -/
theorem row_bounds (h : g.Lawful) :
    0 ≤ g.alienY.toInt ∧ g.alienY.toInt ≤ g.board.height.toInt - 1 := by
  -- In each case the row is a number of ticks up to the horizon, divided by `descendEvery`.
  obtain ⟨n, hnonneg, hle, hrow⟩ : ∃ n, 0 ≤ n ∧ n ≤ (horizon g.board : Int) ∧
      g.alienY.toInt = n / g.board.descendEvery.toInt := by
    cases hwon : g.won with
    | false => exact ⟨_, h.ticks_nonneg, h.ticks_le, h.row_eq hwon⟩
    | true =>
        obtain ⟨-, hone, hle, hrow⟩ := h.hit hwon
        exact ⟨_, by omega, by omega, hrow⟩
  have hdescend := h.board.descendEvery
  have hlanding : n ≤ (g.board.height.toInt - 1) * g.board.descendEvery.toInt := by
    rw [h.board.horizon_eq, Int.mul_comm] at hle
    exact Int.le_trans hle (Int.min_le_right _ _)
  rw [hrow]
  exact ⟨Int.ediv_nonneg hnonneg (by omega), Int.ediv_le_of_le_mul (by omega) hlanding⟩

end Lawful

/-- The sums and differences of words that a tick takes, and those of the two distances, are
those of whole numbers.  A duel that is over counts neither ticks nor rows. -/
structure Exact (g : Duel) : Prop where
  clock : g.finished = false → (g.ticks + 1).toInt = g.ticks.toInt + 1
  left : (g.ship - 1).toInt = g.ship.toInt - 1
  right : (g.ship + 1).toInt = g.ship.toInt + 1
  edge : (g.board.width - 1).toInt = g.board.width.toInt - 1
  /-- The alien has turned round or not, goes on in its direction, or back from a wall. -/
  drift : ∀ way ∈ [g.heading, -g.heading], (-way).toInt = -way.toInt ∧
    (g.alienX + way).toInt = g.alienX.toInt + way.toInt ∧
    (g.alienX + -way).toInt = g.alienX.toInt + -way.toInt
  descent : g.finished = false → (g.alienY + 1).toInt = g.alienY.toInt + 1
  ground : (g.board.height - 1).toInt = g.board.height.toInt - 1
  distanceX : g.distanceX.toInt = g.alienX.toInt - g.ship.toInt
  distanceY : g.distanceY.toInt = g.board.height.toInt - 1 - g.alienY.toInt

theorem Lawful.exact (h : g.Lawful) (hfield : g.OnField) : g.Exact := by
  obtain ⟨⟨hship, hship'⟩, ⟨halien, halien'⟩, hheading⟩ := hfield
  obtain ⟨hrow, hrow'⟩ := h.row_bounds
  have hwidth := g.board.width.toInt_lt
  have hheight := g.board.height.toInt_lt
  have hground : (g.board.height - 1).toInt = g.board.height.toInt - 1 :=
    toInt_sub_one (y := 0) (Int.lt_of_lt_of_le (by decide) h.board.height)
  have hone : (1 : Int64).toInt = 1 := rfl
  constructor
  case clock => exact fun hopen => toInt_add_one (h.inPlay hopen).ticks_lt
  case left => exact toInt_sub_of_bounds (by omega) (by omega)
  case right => exact toInt_add_one hship'
  case edge => exact toInt_sub_one hship'
  case drift =>
    intro way hmem
    have hway : IsHeading way := by
      rcases List.mem_pair.mp hmem with rfl | rfl
      · exact hheading
      · exact hheading.neg
    have hback := IsColumn.toInt_add ⟨halien, halien'⟩ hway.neg
    rw [hway.toInt_neg] at hback
    exact ⟨hway.toInt_neg, IsColumn.toInt_add ⟨halien, halien'⟩ hway, hback⟩
  case descent =>
    intro hopen
    have hlt := (h.inPlay hopen).row_lt
    exact toInt_add_one (y := g.board.height) (by omega)
  case ground => exact hground
  case distanceX => exact toInt_sub_of_bounds (by omega) (by omega)
  case distanceY =>
    rw [Duel.distanceY, toInt_sub_of_bounds (by omega) (by omega), hground]

/-! ## Any use of a duel -/

/-- What can be done with a duel. -/
inductive Operation where
  | advance (a : Action)
  | reset

/-- The duel after an operation. -/
def perform (g : Duel) : Operation → Duel
  | .advance a => (Duel.advance a g).2
  | .reset => g.reset

/-- The duel after one operation after another. -/
def performAll (g : Duel) (ops : List Operation) : Duel := ops.foldl perform g

/-- After a reset nothing is left of what was done before. -/
theorem exists_played (board : Board) (ops : List Operation) :
    ∃ actions, (Duel.new board).performAll ops = (Duel.new board).played actions := by
  -- Said of a duel that was played already, so that it can be carried along the operations.
  suffices h : ∀ before, ∃ actions,
      ((Duel.new board).played before).performAll ops = (Duel.new board).played actions from h []
  induction ops with
  | nil => exact fun before => ⟨before, rfl⟩
  | cons op ops ih =>
      intro before
      cases op with
      | advance a =>
          obtain ⟨actions, h⟩ := ih (before ++ [a])
          rw [played_append] at h
          exact ⟨actions, h⟩
      | reset =>
          obtain ⟨actions, h⟩ := ih []
          refine ⟨actions, Eq.trans ?_ h⟩
          show performAll (onBoard ((Duel.new board).played before).board) ops = _
          rw [played_board]
          rfl

/-- Whatever is done with a duel on any board, nobody leaves the board and no word wraps.

`W`, `H` and `M` are the width, the height and the ticks of the board.  Every tick that neither
wins nor comes after the end moves the alien by one column, if there is more than one. -/
theorem stays_on_board (board : Board) (ops : List Operation) :
    let b := board.effective
    let W := b.width.toInt
    let H := b.height.toInt
    let M := b.maxTicks.toInt
    let g := (Duel.new board).performAll ops
    g.board = b ∧
    (0 ≤ g.ship.toInt ∧ g.ship.toInt < W) ∧ (0 ≤ g.alienX.toInt ∧ g.alienX.toInt < W) ∧
    (g.heading = 1 ∨ g.heading = -1) ∧
    (0 ≤ g.alienY.toInt ∧ g.alienY.toInt ≤ H - 1) ∧ (0 ≤ g.ticks.toInt ∧ g.ticks.toInt ≤ M) ∧
    (g.won = true → g.finished = true) ∧
    (g.finished = false → g.alienY.toInt < H - 1 ∧ g.ticks.toInt < M) ∧
    g.Exact ∧
    |g.distanceX.toInt| < W ∧
    (0 ≤ g.distanceY.toInt ∧ g.distanceY.toInt ≤ H - 1) ∧
    (g.finished = false → 1 ≤ g.distanceY.toInt) ∧
    ∀ a, (1 < W → g.finished = false → (advance a g).2.won = false →
        |(advance a g).2.alienX.toInt - g.alienX.toInt| = 1) ∧
      (W = 1 → (advance a g).2.alienX = g.alienX) := by
  intro b W H M g
  obtain ⟨actions, hplayed⟩ : ∃ actions, g = (Duel.new board).played actions :=
    exists_played board ops
  have hg : g.Lawful := by
    rw [hplayed]
    exact (new_lawful board).played actions
  have hfield : g.OnField := by
    rw [hplayed]
    exact (onBoard_onField board.effective_sensible).played actions
  have hboard : g.board = b := by
    rw [hplayed]
    exact played_board _ actions
  have hship : 0 ≤ g.ship.toInt ∧ g.ship.toInt < W := by
    simpa only [IsColumn, hboard] using hfield.ship
  have halien : 0 ≤ g.alienX.toInt ∧ g.alienX.toInt < W := by
    simpa only [IsColumn, hboard] using hfield.alien
  have hrow : 0 ≤ g.alienY.toInt ∧ g.alienY.toInt ≤ H - 1 := by
    simpa only [hboard] using hg.row_bounds
  have hticks : g.ticks.toInt ≤ M := by
    simpa only [hboard] using hg.ticks_le_maxTicks
  have hopen : g.finished = false → g.alienY.toInt < H - 1 ∧ g.ticks.toInt < M := by
    intro hopen
    have hplay := hg.inPlay hopen
    simpa only [hboard] using And.intro hplay.row_lt hplay.ticks_lt
  have hexact : g.Exact := hg.exact hfield
  have hx := hexact.distanceX
  have hy : g.distanceY.toInt = H - 1 - g.alienY.toInt := by
    simpa only [hboard] using hexact.distanceY
  refine ⟨hboard, hship, halien, hfield.heading, hrow, ⟨hg.ticks_nonneg, hticks⟩,
    fun hwon => (hg.hit hwon).1, hopen, hexact, ?_, ?_, ?_, fun a => ⟨?_, ?_⟩⟩
  · rw [hx, abs_lt]
    omega
  · omega
  · intro h
    have hlt := (hopen h).1
    omega
  · intro hwide h hwon
    have hmiss : g.hits a = false := by
      rw [advance_won h, hg.not_won h] at hwon
      exact hwon
    have hmoves := (hfield.alien_moves a).2 (hboard ▸ hwide) h hmiss
    rw [Int.abs_eq_natAbs]
    omega
  · intro hnarrow
    exact (hfield.alien_moves a).1 (hboard ▸ hnarrow)

end Duel

end Stepwise
