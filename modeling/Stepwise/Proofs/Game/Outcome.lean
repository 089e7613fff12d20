import Stepwise.Proofs.Game.Course

/-!
# How a duel ends

A duel is played by a list of actions (`Duel.played`).  Until it is over, every action counts as
a tick.  One of them decides it, and after that nothing changes any more (`Duel.exists_deciding`).

A duel that is over keeps in its counters how it ended (`Duel.Lawful`).  If it was lost, the
ticks have reached the horizon of the board, since the two ways to lose are to run out of ticks
and to let the alien come down all rows.  If it was won, the last tick was cut short by the hit,
so the alien is where the tick before has left it.
-/

namespace Stepwise.Duel

variable {g : Duel} {a : Action}

/-! ## One tick -/

theorem distanceX_eq_zero_iff : g.distanceX = 0 ↔ g.alienX = g.ship := by
  rw [distanceX, Int64.sub_eq_iff_eq_add, Int64.zero_add]

theorem hits_iff : g.hits a = true ↔ a = .move .shoot ∧ g.distanceX = 0 := by
  rw [distanceX_eq_zero_iff]
  simp [hits]

/-- An open duel is won by a hit, and by nothing else. -/
theorem advance_won (hopen : g.finished = false) (a : Action) :
    (advance a g).2.won = (g.won || g.hits a) := by
  cases hhit : g.hits a with
  | true => simp [advance_of_hit hopen hhit]
  | false =>
      rw [advance_of_miss hopen hhit]
      simp [judge, moveAlien]

/-- A tick without a hit ends an open duel when the alien has landed or no tick is left. -/
theorem advance_lost (hopen : g.finished = false) (hmiss : g.hits a = false)
    (h : (advance a g).2.finished = true) :
    (advance a g).2.alienY =
        (if (g.ticks + 1) % g.board.descendEvery = 0 then g.alienY + 1 else g.alienY) ∧
      (g.board.height - 1 ≤ (advance a g).2.alienY ∨
        g.board.maxTicks ≤ (advance a g).2.ticks) := by
  rw [advance_of_miss hopen hmiss] at h ⊢
  refine ⟨rfl, ?_⟩
  simpa [judge, moveAlien, hopen] using h

/-- An action that succeeds as a shot is a hit on an open duel. -/
theorem advance_shoot (g : Duel) :
    (advance (.move .shoot) g).1 = true ↔ g.finished = false ∧ g.distanceX = 0 := by
  cases hopen : g.finished with
  | true => simp [advance_of_finished hopen]
  | false =>
      cases hhit : g.hits (.move .shoot) with
      | true =>
          rw [advance_of_hit hopen hhit]
          simpa using (hits_iff.mp hhit).2
      | false =>
          have hfar : ¬ g.distanceX = 0 := by
            intro hzero
            rw [hits_iff.mpr ⟨rfl, hzero⟩] at hhit
            cases hhit
          rw [advance_of_miss hopen hhit]
          simp [steer, hfar]

/-! ## What the counters say -/

/-- A duel on course whose counters say how it ended, if it is over. -/
structure Lawful (g : Duel) : Prop extends g.OnCourse where
  hit : g.won = true → g.finished = true ∧ 1 ≤ g.ticks.toInt ∧
    g.ticks.toInt ≤ horizon g.board ∧
    g.alienY.toInt = (g.ticks.toInt - 1) / g.board.descendEvery.toInt
  lost : g.finished = true → g.won = false → g.ticks.toInt = horizon g.board ∧
    g.alienY.toInt = g.ticks.toInt / g.board.descendEvery.toInt

theorem Lawful.not_won (h : g.Lawful) (hopen : g.finished = false) : g.won = false := by
  by_contra hwon
  rw [Bool.not_eq_false] at hwon
  rw [(h.hit hwon).1] at hopen
  cases hopen

theorem new_lawful (b : Board) : (Duel.new b).Lawful where
  toOnCourse := new_onCourse b
  hit hwon := by cases hwon
  lost hover := by cases hover

/-- The tick that loses a duel is the last one before the horizon. -/
theorem InPlay.lost (h : g.InPlay) (hboard : g.board.Sensible) (hopen : g.finished = false)
    (hmiss : g.hits a = false) (hover : (advance a g).2.finished = true) :
    (advance a g).2.ticks.toInt = horizon g.board ∧
      (advance a g).2.alienY.toInt =
        (advance a g).2.ticks.toInt / g.board.descendEvery.toInt := by
  have hlt := h.ticks_lt_horizon hboard
  have hticks : (advance a g).2.ticks.toInt = g.ticks.toInt + 1 := by
    rw [advance_ticks hopen, toInt_add_one h.ticks_lt]
  obtain ⟨hrow, hend⟩ := advance_lost hopen hmiss hover
  have hrow' : (advance a g).2.alienY.toInt =
      (advance a g).2.ticks.toInt / g.board.descendEvery.toInt := by
    rw [hrow, h.row_succ hboard, hticks]
  refine ⟨?_, hrow'⟩
  have hreached : (horizon g.board : Int) ≤ (advance a g).2.ticks.toInt := by
    rw [hboard.horizon_eq]
    rcases hend with hlanded | hspent
    · have hground : (g.board.height - 1).toInt = g.board.height.toInt - 1 :=
        toInt_sub_one (Int.lt_trans h.row_lt (by omega))
      have hdescend := hboard.descendEvery
      rw [Int64.le_iff_toInt_le, hground, hrow', Int.le_ediv_iff_mul_le (by omega),
        Int.mul_comm] at hlanded
      exact Int.le_trans (Int.min_le_right _ _) hlanded
    · exact Int.le_trans (Int.min_le_left _ _) (Int64.le_iff_toInt_le.mp hspent)
  omega

/-- A tick keeps the counters lawful. -/
theorem Lawful.advance (h : g.Lawful) (a : Action) : (Duel.advance a g).2.Lawful := by
  cases hopen : g.finished with
  | true =>
      rw [advance_of_finished hopen]
      exact h
  | false =>
      have hplay := h.inPlay hopen
      have hwon := advance_won hopen a
      rw [h.not_won hopen, Bool.false_or] at hwon
      refine ⟨h.toOnCourse.advance a, fun hhit => ?_, fun hover hmiss => ?_⟩
      · rw [hwon] at hhit
        have hlt := hplay.ticks_lt_horizon h.board
        have hnonneg := hplay.nonneg
        rw [advance_of_hit hopen hhit]
        simp only [toInt_add_one hplay.ticks_lt]
        refine ⟨trivial, by omega, by omega, ?_⟩
        rw [hplay.row, Int.add_sub_cancel]
      · rw [advance_board]
        exact hplay.lost h.board hopen (hwon ▸ hmiss) hover

theorem Lawful.ticks_le (h : g.Lawful) : g.ticks.toInt ≤ horizon g.board := by
  cases hover : g.finished with
  | false => exact Int.le_of_lt ((h.inPlay hover).ticks_lt_horizon h.board)
  | true =>
      cases hwon : g.won with
      | true => exact (h.hit hwon).2.2.1
      | false => exact Int.le_of_eq (h.lost hover hwon).1

theorem Lawful.row_eq (h : g.Lawful) (hwon : g.won = false) :
    g.alienY.toInt = g.ticks.toInt / g.board.descendEvery.toInt := by
  cases hover : g.finished with
  | true => exact (h.lost hover hwon).2
  | false => exact (h.inPlay hover).row

/-- A shot succeeds when it wins. -/
theorem Lawful.shot_iff (h : g.Lawful) :
    (Duel.advance (.move .shoot) g).1 = true ↔
      g.won = false ∧ (Duel.advance (.move .shoot) g).2.won = true := by
  rw [advance_shoot]
  constructor
  · rintro ⟨hopen, hzero⟩
    rw [advance_won hopen, hits_iff.mpr ⟨rfl, hzero⟩]
    exact ⟨h.not_won hopen, Bool.or_true _⟩
  · rintro ⟨hbefore, hafter⟩
    cases hopen : g.finished with
    | true =>
        rw [advance_of_finished hopen, hbefore] at hafter
        cases hafter
    | false =>
        rw [advance_won hopen, hbefore, Bool.false_or] at hafter
        exact ⟨rfl, (hits_iff.mp hafter).2⟩

/-! ## Many ticks -/

/-- The duel after some actions. -/
def played (g : Duel) (actions : List Action) : Duel :=
  actions.foldl (fun g a => (advance a g).2) g

@[simp] theorem played_nil (g : Duel) : g.played [] = g := rfl

@[simp] theorem played_cons (g : Duel) (a : Action) (actions : List Action) :
    g.played (a :: actions) = (advance a g).2.played actions := rfl

@[simp] theorem played_append (g : Duel) (first second : List Action) :
    g.played (first ++ second) = (g.played first).played second :=
  List.foldl_append

theorem played_of_finished (h : g.finished = true) (actions : List Action) :
    g.played actions = g := by
  induction actions with
  | nil => rfl
  | cons a actions ih => rw [played_cons, advance_of_finished h, ih]

theorem played_board (g : Duel) (actions : List Action) : (g.played actions).board = g.board := by
  induction actions generalizing g with
  | nil => rfl
  | cons a actions ih => rw [played_cons, ih, advance_board]

theorem Lawful.played (h : g.Lawful) (actions : List Action) : (g.played actions).Lawful := by
  induction actions generalizing g with
  | nil => exact h
  | cons a actions ih => exact ih (h.advance a)

/-- As long as a duel is open, every action counts as a tick. -/
theorem Lawful.ticks_played (h : g.Lawful) {actions : List Action}
    (hopen : (g.played actions).finished = false) :
    (g.played actions).ticks.toInt = g.ticks.toInt + actions.length := by
  induction actions generalizing g with
  | nil => simp
  | cons a actions ih =>
      rw [played_cons] at hopen ⊢
      have hfirst : g.finished = false := by
        cases hover : g.finished with
        | false => rfl
        | true =>
            rw [advance_of_finished hover, played_of_finished hover, hover] at hopen
            cases hopen
      rw [ih (h.advance a) hopen, advance_ticks hfirst,
        toInt_add_one (h.inPlay hfirst).ticks_lt, List.length_cons]
      omega

/-- One action decides a duel that is over, and those after it change nothing. -/
theorem exists_deciding (hopen : g.finished = false) {actions : List Action}
    (hover : (g.played actions).finished = true) :
    ∃ before a rest, actions = before ++ a :: rest ∧ (g.played before).finished = false ∧
      (g.played (before ++ [a])).finished = true ∧
      g.played actions = (advance a (g.played before)).2 := by
  induction actions generalizing g with
  | nil =>
      rw [played_nil, hopen] at hover
      cases hover
  | cons a actions ih =>
      rw [played_cons] at hover
      cases hnext : (advance a g).2.finished with
      | true => exact ⟨[], a, actions, rfl, hopen, hnext, played_of_finished hnext actions⟩
      | false =>
          obtain ⟨before, x, rest, rfl, hbefore, hafter, hsame⟩ := ih hnext hover
          exact ⟨a :: before, x, rest, rfl, hbefore, hafter, hsame⟩

/-- A hit on an open duel wins it, for good. -/
theorem won_of_hit {before rest : List Action} (hopen : (g.played before).finished = false)
    (hzero : (g.played before).distanceX = 0) :
    (g.played (before ++ .move .shoot :: rest)).finished = true ∧
      (g.played (before ++ .move .shoot :: rest)).won = true := by
  rw [played_append, played_cons, advance_of_hit hopen (hits_iff.mpr ⟨rfl, hzero⟩),
    played_of_finished rfl]
  exact ⟨rfl, rfl⟩

/-- A duel that is won was decided by a hit. -/
theorem Lawful.exists_hit (h : g.Lawful) (hopen : g.finished = false) {actions : List Action}
    (hwon : (g.played actions).won = true) :
    ∃ before rest, actions = before ++ .move .shoot :: rest ∧
      (g.played before).finished = false ∧ (g.played before).distanceX = 0 := by
  have hover : (g.played actions).finished = true := ((h.played actions).hit hwon).1
  obtain ⟨before, a, rest, rfl, hbefore, -, hsame⟩ := exists_deciding hopen hover
  rw [hsame, advance_won hbefore, (h.played before).not_won hbefore, Bool.false_or,
    hits_iff] at hwon
  obtain ⟨rfl, hzero⟩ := hwon
  exact ⟨before, rest, rfl, hbefore, hzero⟩

/-- How a duel on any board goes, whatever is done in it.

`T` is the horizon of the board, `after` the duel after some actions, and `hitAt before` says that
a shot after `before` hits an open duel.  A duel is over when the horizon is reached or a shot
has hit.  It is won when the last action that changed anything was such a shot.  While it is open
it counts every action.  The row of the alien can be read off from the ticks, of which the one that
won does not count.  A shot succeeds when it wins.  A duel that is over does not change. -/
theorem outcome_of_actions (board : Board) (actions : List Action) :
    let b := board.effective
    let T := min b.maxTicks.toInt (b.descendEvery.toInt * (b.height.toInt - 1))
    let after := (Duel.new board).played
    let hitAt := fun before => (after before).finished = false ∧ (after before).distanceX = 0
    let changes := fun before a => after (before ++ [a]) ≠ after before
    let g := after actions
    (g.finished = true ↔ g.ticks.toInt = T ∨
      ∃ before rest, actions = before ++ .move .shoot :: rest ∧ hitAt before) ∧
    (g.won = true ↔
      ∃ before rest, actions = before ++ .move .shoot :: rest ∧ hitAt before ∧
        changes before (.move .shoot) ∧
        ∀ mid a tail, rest = mid ++ a :: tail → ¬ changes (before ++ .move .shoot :: mid) a) ∧
    (g.finished = false → g.ticks.toInt = actions.length ∧ g.ticks.toInt < T) ∧
    g.ticks.toInt ≤ T ∧
    (g.won = false → g.alienY.toInt = g.ticks.toInt / b.descendEvery.toInt) ∧
    (g.won = true → g.alienY.toInt = (g.ticks.toInt - 1) / b.descendEvery.toInt) ∧
    ((advance (.move .shoot) g).1 = true ↔
      g.won = false ∧ (advance (.move .shoot) g).2.won = true) ∧
    (g.finished = true → ∀ a, advance a g = (false, g)) := by
  intro b T after hitAt changes g
  have hnew := new_lawful board
  have hstart : (Duel.new board).finished = false := rfl
  have hg : g.Lawful := hnew.played actions
  have hboard : g.board = b := played_board _ actions
  have hT : (horizon g.board : Int) = T := by
    rw [hboard]
    exact board.effective_sensible.horizon_eq
  have hwithin : g.finished = false → g.ticks.toInt < T := by
    intro hopen
    rw [← hT]
    exact (hg.inPlay hopen).ticks_lt_horizon hg.board
  refine ⟨⟨?_, ?_⟩, ⟨?_, ?_⟩, ?_, ?_, ?_, ?_, hg.shot_iff, advance_of_finished⟩
  · intro hover
    cases hwon : g.won with
    | true => exact .inr (hnew.exists_hit hstart hwon)
    | false => exact .inl (hT ▸ (hg.lost hover hwon).1)
  · rintro (hreached | ⟨before, rest, rfl, hopen, hzero⟩)
    · by_contra hover
      have hlt := hwithin (Bool.eq_false_iff.mpr hover)
      omega
    · exact (won_of_hit hopen hzero).1
  · intro hwon
    obtain ⟨before, rest, rfl, hopen, hzero⟩ := hnew.exists_hit hstart hwon
    refine ⟨before, rest, rfl, ⟨hopen, hzero⟩, ?_, ?_⟩
    · intro hsame
      have hover : (after (before ++ [.move .shoot])).finished = true :=
        (won_of_hit hopen hzero).1
      rw [hsame, hopen] at hover
      cases hover
    · rintro mid a tail rfl hchanges
      apply hchanges
      show (Duel.new board).played _ = _
      rw [played_append, played_of_finished (won_of_hit hopen hzero).1]
  · rintro ⟨before, rest, rfl, ⟨hopen, hzero⟩, -, -⟩
    exact (won_of_hit hopen hzero).2
  · intro hopen
    have hcount := hnew.ticks_played hopen
    have hzero : (Duel.new board).ticks.toInt = 0 := rfl
    rw [hzero, Int.zero_add] at hcount
    exact ⟨hcount, hwithin hopen⟩
  · rw [← hT]
    exact hg.ticks_le
  · intro hwon
    rw [← hboard]
    exact hg.row_eq hwon
  · intro hwon
    rw [← hboard]
    exact (hg.hit hwon).2.2.2

end Stepwise.Duel
