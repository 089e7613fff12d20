import Mathlib.Order.Nat
import Stepwise.Proofs.Command.Overrun

/-!
# One block for every tick

When it traces, the command prints the duel and the trace of the machine before the first tick and
after every tick.  A machine has come to its `j`-th tick after the least number of steps that
charge `j` ticks (`Machine.AtTick`), and running to a tick leads from one of these moments to the
next (`Machine.AtTick.ticksTo`), however deep in the program it stands.

So the command goes from moment to moment (`Command.tickByTick_eq_map`), and the number of moments,
the ticks of the machine and those of the duel stay in step as long as the duel is open
(`Command.Moments.underway`).  What it prints at the end does not depend on the blocks before.
-/

namespace Stepwise

variable {σ : Type} {env : Environment σ}

namespace Machine

variable {m m' : Machine σ} {quiet ts : List Transition} {last : Transition}

/-! ## Moments -/

/-- The number of ticks that the next `n` steps charge. -/
def ticksIn (env : Environment σ) (m : Machine σ) (n : Nat) : Nat :=
  (m.answers env n).countP ticked

theorem answers_add (m : Machine σ) (n k : Nat) :
    m.answers env (n + k) = m.answers env n ++ (m.afterSteps env n).answers env k := by
  induction n generalizing m with
  | zero => rw [Nat.zero_add]; rfl
  | succ n ih => rw [Nat.succ_add, answers, ih, answers, afterSteps_succ, List.cons_append]

theorem ticksIn_add (m : Machine σ) (n k : Nat) :
    m.ticksIn env (n + k) = m.ticksIn env n + (m.afterSteps env n).ticksIn env k := by
  rw [ticksIn, answers_add, List.countP_append]
  rfl

theorem ticksIn_mono (m : Machine σ) {n k : Nat} (h : n ≤ k) :
    m.ticksIn env n ≤ m.ticksIn env k := by
  obtain ⟨d, rfl⟩ := Nat.exists_eq_add_of_le h
  rw [ticksIn_add]
  exact Nat.le_add_right _ _

theorem Steps.ticksIn_eq (h : Steps env m ts m') :
    m.ticksIn env ts.length = ts.countP fun t => t.event.charges := by
  induction h with
  | refl => rfl
  | @step m₁ m₂ _ t rest hstep _ ih =>
      rw [ticksIn, List.length_cons, answers, hstep, List.countP_cons, List.countP_cons, ← ih]
      rfl

/-- After `n` steps the machine has just come to its `j`-th tick. -/
def AtTick (env : Environment σ) (m : Machine σ) (j n : Nat) : Prop :=
  IsLeast {n | m.ticksIn env n = j} n

theorem atTick_zero (m : Machine σ) : m.AtTick env 0 0 := ⟨rfl, fun n _ => Nat.zero_le n⟩

variable {j n n' : Nat}

/-- The steps to the next tick lead to the next moment. -/
theorem AtTick.succ (h : m.AtTick env j n)
    (hticks : (m.afterSteps env n).TicksTo env quiet last m') :
    m.AtTick env (j + 1) (n + (quiet.length + 1)) := by
  have hj : m.ticksIn env n = j := h.1
  obtain ⟨mid, hfirst, -⟩ := hticks.steps.split
  have hquiet : (m.afterSteps env n).ticksIn env quiet.length = 0 := by
    rw [hfirst.ticksIn_eq, List.countP_eq_zero]
    intro t ht
    rw [hticks.quiet t ht]
    exact Bool.false_ne_true
  have hlast : (m.afterSteps env n).ticksIn env (quiet.length + 1) = 1 := by
    have hall := hticks.steps.ticksIn_eq
    rw [List.countP_append, ← hfirst.ticksIn_eq, hquiet] at hall
    simpa [hticks.charges] using hall
  constructor
  · show m.ticksIn env (n + (quiet.length + 1)) = j + 1
    rw [ticksIn_add, hj, hlast]
  · -- Up to the quiet steps there are too few ticks.
    intro k hk
    by_contra hlt
    have hle : m.ticksIn env k ≤ m.ticksIn env (n + quiet.length) := ticksIn_mono m (by omega)
    rw [ticksIn_add, hj, hquiet, show m.ticksIn env k = j + 1 from hk] at hle
    omega

variable {program : Form} {s : σ}

/-- A machine with a valid program runs from each moment to the next, and between the two it makes
the steps to a tick. -/
theorem AtTick.ticksTo (hp : Program program)
    (h : (Machine.new program s).AtTick env j n) :
    ∃ quiet last n', (Machine.new program s).AtTick env (j + 1) n' ∧
      ((Machine.new program s).afterSteps env n).TicksTo env quiet last
        ((Machine.new program s).afterSteps env n') ∧
      ((Machine.new program s).afterSteps env n).runTick env =
        ((Machine.new program s).afterSteps env n',
          .ok (env.finished ((Machine.new program s).afterSteps env n').state)) := by
  have hsound : ((Machine.new program s).afterSteps env n).Sound := performAll_sound hp env s _
  obtain ⟨quiet, last, m', hticks, hlength⟩ := hsound.exists_ticksTo env
  have hm' : (Machine.new program s).afterSteps env (n + (quiet.length + 1)) = m' := by
    have hsteps := hticks.steps.performAll_eq
    rw [List.length_append, List.length_singleton] at hsteps
    rw [afterSteps_add]
    exact hsteps
  refine ⟨quiet, last, _, h.succ hticks, ?_, ?_⟩
  · rwa [hm']
  · rw [hm']
    exact hsound.runTick_eq hticks hlength

theorem exists_atTick (hp : Program program) (env : Environment σ) (s : σ) (j : Nat) :
    ∃ n, (Machine.new program s).AtTick env j n := by
  induction j with
  | zero => exact ⟨0, atTick_zero _⟩
  | succ j ih =>
      obtain ⟨n, hn⟩ := ih
      obtain ⟨-, -, n', hn', -⟩ := hn.ticksTo hp
      exact ⟨n', hn'⟩

/-- The machine has counted the ticks that it came to. -/
theorem AtTick.stats_ticks (h : (Machine.new program s).AtTick env j n) :
    ((Machine.new program s).afterSteps env n).stats.ticks = Int64.ofNat j := by
  have hj : ((Machine.new program s).answers env n).countP ticked = j := h.1
  rw [stats_of_answers, ← hj, countP_ticked]
  exact Int64.zero_add _

end Machine

/-! ## From moment to moment -/

namespace Command

open Machine

variable {program : Form} {board : Board} {maxSteps : Int64} {after : Nat → Machine Duel}
  {j t : Nat}

/-- The command goes no further than this machine. -/
def Stops (maxSteps : Int64) (m : Machine Duel) : Prop :=
  m.state.finished = true ∨ ¬ m.stats.steps < maxSteps

theorem goes_of_not_stops {m : Machine Duel} (h : ¬ Stops maxSteps m) :
    m.state.finished = false ∧ m.stats.steps < maxSteps := by
  obtain ⟨hopen, hsteps⟩ := not_or.mp h
  exact ⟨Bool.not_eq_true _ ▸ hopen, not_not.mp hsteps⟩

/-- If each of some machines runs to the next, the command goes through them up to the first at
which it stops. -/
theorem tickByTick_eq_map (hrun : ∀ j, ∃ r, (after j).runTick invaders = (after (j + 1), r))
    (ht : IsLeast {j | Stops maxSteps (after j)} t) {fuel : Nat} (hj : j ≤ t)
    (hfuel : t - j ≤ fuel) :
    tickByTick maxSteps fuel (after j) = (List.range' (j + 1) (t - j)).map after := by
  induction fuel generalizing j with
  | zero =>
      rw [Nat.le_zero.mp hfuel]
      rfl
  | succ fuel ih =>
      rcases Nat.eq_or_lt_of_le hj with rfl | hlt
      · rw [tickByTick_stops ht.1, Nat.sub_self]
        rfl
      · have hgoes : ¬ Stops maxSteps (after j) := fun hstop => Nat.not_le.mpr hlt (ht.2 hstop)
        obtain ⟨hopen, hsteps⟩ := goes_of_not_stops hgoes
        obtain ⟨r, hr⟩ := hrun j
        obtain ⟨d, hd⟩ : ∃ d, t - j = d + 1 := ⟨t - (j + 1), by omega⟩
        have hrest : t - (j + 1) = d := by omega
        rw [tickByTick_goes hopen hsteps hr, ih hlt (by omega), hrest, hd, List.range'_succ,
          List.map_cons]

/-- Machines that a new machine comes to, one for every tick. -/
structure Moments (program : Form) (board : Board) (after : Nat → Machine Duel) : Prop where
  valid : Program program
  start : after 0 = Machine.new program (Duel.new board)
  ticksTo : ∀ j, ∃ quiet last, (after j).TicksTo invaders quiet last (after (j + 1))

namespace Moments

/-- As long as the duel is open it loses a tick at every moment. -/
theorem underway (h : Moments program board after)
    (hopen : ∀ i < j, (after i).state.finished = false) :
    (∃ done, Underway program board done (after j)) ∧
      (after j).state.ticksLeft + j ≤ Duel.horizon board.effective := by
  induction j with
  | zero =>
      rw [h.start]
      exact ⟨⟨[], .new h.valid board⟩, Nat.le_of_eq (Duel.ticksLeft_new board)⟩
  | succ j ih =>
      obtain ⟨⟨done, hdone⟩, hleft⟩ := ih fun i hi => hopen i (Nat.lt_succ_of_lt hi)
      have hnow := hopen j (Nat.lt_succ_self j)
      obtain ⟨quiet, last, hticks⟩ := h.ticksTo j
      obtain ⟨hplays, a, hstate⟩ := hticks.plays invaders_lasts hnow
      have hless : (after (j + 1)).state.ticksLeft < (after j).state.ticksLeft := by
        rw [hstate]
        exact hdone.onCourse.ticksLeft_advance_lt hnow a
      exact ⟨⟨_, hdone.valid, hdone.plays.trans hplays⟩, by omega⟩

/-- The command stops at some moment, within the horizon of the board. -/
theorem exists_stop (h : Moments program board after) (maxSteps : Int64) :
    ∃ t, IsLeast {j | Stops maxSteps (after j)} t ∧ t ≤ Duel.horizon board.effective := by
  classical
  have hbound : ∀ {j}, (∀ i < j, ¬ Stops maxSteps (after i)) →
      j ≤ Duel.horizon board.effective := by
    intro j hgoes
    have hleft := (h.underway fun i hi => (goes_of_not_stops (hgoes i hi)).1).2
    omega
  have hex : ∃ j, Stops maxSteps (after j) := by
    by_contra hnone
    have hle := hbound (j := Duel.horizon board.effective + 1) fun i _ hi => hnone ⟨i, hi⟩
    omega
  have ht := Nat.isLeast_find hex
  exact ⟨_, ht, hbound fun i hi hstop => Nat.not_le.mpr hi (ht.2 hstop)⟩

/-- The command goes through all moments up to the first at which it stops, and ends there. -/
theorem tickByTick_eq (h : Moments program board after)
    (hrun : ∀ j, ∃ r, (after j).runTick invaders = (after (j + 1), r))
    (ht : IsLeast {j | Stops maxSteps (after j)} t) (hle : t ≤ Duel.horizon board.effective) :
    let start := Machine.new program (Duel.new board)
    let ticks := tickByTick maxSteps (Duel.horizon board.effective) start
    start :: ticks = (List.range (t + 1)).map after ∧ ticks.getLastD start = after t := by
  intro start ticks
  have hstart : after 0 = start := h.start
  have hticks : ticks = (List.range' 1 t).map after := by
    show tickByTick maxSteps _ start = _
    rw [← hstart]
    exact tickByTick_eq_map hrun ht (Nat.zero_le t) (by omega)
  constructor
  · rw [hticks, List.range_eq_range', List.range'_succ, List.map_cons, hstart]
  · rw [hticks, ← hstart]
    cases t with
    | zero => rfl
    | succ t =>
        rw [List.range'_concat, List.map_append, List.map_singleton, List.getLastD_concat,
          Nat.one_mul, Nat.add_comm]

/-- The moments of a machine with a valid program, and the runs from one to the next. -/
theorem of_atTick (hp : Program program) {moment : Nat → Nat}
    (hmoment : ∀ j, (Machine.new program (Duel.new board)).AtTick invaders j (moment j)) :
    let after j := (Machine.new program (Duel.new board)).afterSteps invaders (moment j)
    Moments program board after ∧ ∀ j, ∃ r, (after j).runTick invaders = (after (j + 1), r) := by
  intro after
  have hnext : ∀ j, ∃ quiet last, (after j).TicksTo invaders quiet last (after (j + 1)) ∧
      ∃ r, (after j).runTick invaders = (after (j + 1), r) := by
    intro j
    obtain ⟨quiet, last, n', hn', hticks, hrun⟩ := (hmoment j).ticksTo hp
    obtain rfl : n' = moment (j + 1) := hn'.unique (hmoment (j + 1))
    exact ⟨quiet, last, hticks, _, hrun⟩
  have hstart : moment 0 = 0 := (hmoment 0).unique (atTick_zero _)
  refine ⟨⟨hp, ?_, fun j => ?_⟩, fun j => ?_⟩
  · show (Machine.new program (Duel.new board)).afterSteps invaders (moment 0) = _
    rw [hstart]
    rfl
  · obtain ⟨quiet, last, hticks, -⟩ := hnext j
    exact ⟨quiet, last, hticks⟩
  · obtain ⟨-, -, -, hrun⟩ := hnext j
    exact hrun

end Moments

/-! ## What is printed -/

theorem horizon_lt (board : Board) : Duel.horizon board.effective < 2 ^ 63 := by
  have hword := board.effective.maxTicks.toInt_lt
  have heq := board.effective_sensible.horizon_eq
  omega

theorem toString_ofNat {n : Nat} (h : n < 2 ^ 63) : toString (Int64.ofNat n) = toString n := by
  show toString (Int64.ofNat n).toInt = toString n
  rw [Int64.toInt_ofNat_of_lt h]
  rfl

/-- The block after `j` ticks of the duel. -/
theorem snapshotBlock_eq {m : Machine Duel} (hj : j < 2 ^ 63)
    (hticks : m.state.ticks = Int64.ofNat j) :
    snapshotBlock m = "tick=" ++ toString j ++ " ship=" ++ toString m.state.ship
      ++ " alien=(" ++ toString m.state.alienX ++ "," ++ toString m.state.alienY ++ ")"
      ++ " finished=" ++ Text.flag m.state.finished ++ " won=" ++ Text.flag m.state.won
      ++ "\n" ++ m.trace ++ "\n\n" := by
  have hprinted : toString m.state.ticks = toString j := hticks ▸ toString_ofNat hj
  unfold snapshotBlock Duel.text
  rw [hprinted]

/-- The last line after `j` ticks of the machine. -/
theorem summaryLine_eq {m : Machine Duel} (hj : j < 2 ^ 63)
    (hticks : m.stats.ticks = Int64.ofNat j) :
    summaryLine m = "won=" ++ Text.flag m.state.won ++ " ticks=" ++ toString j
      ++ " steps=" ++ toString m.stats.steps ++ " rounds=" ++ toString m.stats.rounds
      ++ " actions=" ++ toString m.stats.actions ++ "\n" := by
  have hprinted : toString m.stats.ticks = toString j := hticks ▸ toString_ofNat hj
  unfold summaryLine
  rw [hprinted]

/-- What the command prints about a valid program with and without a trace.

`moment j` is the number of steps after which the machine has just made its `j`-th tick, and `t` is
the first tick at which the duel is over or the counter of steps has reached the number in the
settings.  With a trace, the command prints one block for each of the moments `0` to `t`, with the
number of the tick, the duel and the trace of the machine at that moment.  Then follows a line that
says that there were `t` ticks.  Without a trace it prints the same line and no block.  Nothing
else depends on whether it traces. -/
theorem trace_of_playOne (settings : Settings) (program : Form) (hp : program.validate = .ok ()) :
    let start := Machine.new program (Duel.new settings.game)
    let after := start.afterSteps invaders
    ∃ moment : Nat → Nat, (∀ j, IsLeast {n | start.ticksIn invaders n = j} (moment j)) ∧
    ∃ t, IsLeast {j | (after (moment j)).state.finished = true ∨
        ¬ (after (moment j)).stats.steps < settings.maxSteps} t ∧
    ∃ (blocks : List String) (line : String), blocks.length = t + 1 ∧
      (∀ j ≤ t, let m := after (moment j);
        blocks[j]? = some ("tick=" ++ toString j ++ " ship=" ++ toString m.state.ship
          ++ " alien=(" ++ toString m.state.alienX ++ "," ++ toString m.state.alienY ++ ")"
          ++ " finished=" ++ Text.flag m.state.finished ++ " won=" ++ Text.flag m.state.won
          ++ "\n" ++ m.trace ++ "\n\n")) ∧
      (let m := after (moment t);
        line = "won=" ++ Text.flag m.state.won ++ " ticks=" ++ toString t
          ++ " steps=" ++ toString m.stats.steps ++ " rounds=" ++ toString m.stats.rounds
          ++ " actions=" ++ toString m.stats.actions ++ "\n") ∧
      ∀ level : Log.Level,
        let traced := playOne settings level program true
        let plain := playOne settings level program false
        traced.output = String.join blocks ++ line ∧ plain.output = line ∧
          traced.error? = none ∧ plain.error? = none ∧ traced.log = plain.log := by
  intro start after
  have hprogram : Program program := Form.validate_eq_ok_iff.mp hp
  choose moment hmoment using exists_atTick hprogram invaders (Duel.new settings.game)
  obtain ⟨hmoments, hrun⟩ := Moments.of_atTick hprogram hmoment
  obtain ⟨t, ht, hle⟩ := hmoments.exists_stop settings.maxSteps
  obtain ⟨hall, hlast⟩ := hmoments.tickByTick_eq hrun ht hle
  have hword : t < 2 ^ 63 := Nat.lt_of_le_of_lt hle (horizon_lt _)
  -- Up to the last moment the duel was open, so it has counted the ticks of the machine.
  have hticks : ∀ j ≤ t, (after (moment j)).state.ticks = Int64.ofNat j := by
    intro j hj
    have hgoes : ∀ i < j, ¬ Stops settings.maxSteps (after (moment i)) := fun i hi hstop =>
      Nat.not_le.mpr (Nat.lt_of_lt_of_le hi hj) (ht.2 hstop)
    obtain ⟨⟨done, hdone⟩, -⟩ := hmoments.underway fun i hi => (goes_of_not_stops (hgoes i hi)).1
    exact hdone.plays.ticks_agree.trans (hmoment j).stats_ticks
  refine ⟨moment, hmoment, t, ht,
    (List.range (t + 1)).map fun j => snapshotBlock (after (moment j)),
    summaryLine (after (moment t)), ?_, fun j hj => ?_, ?_, fun level => ?_⟩
  · rw [List.length_map, List.length_range]
  · have hblock : ((List.range (t + 1)).map fun j => snapshotBlock (after (moment j)))[j]? =
        some (snapshotBlock (after (moment j))) := by
      rw [List.getElem?_map, List.getElem?_range (Nat.lt_succ_of_le hj)]
      rfl
    rw [hblock, snapshotBlock_eq (Nat.lt_of_le_of_lt hj hword) (hticks j hj)]
  · exact summaryLine_eq hword (hmoment t).stats_ticks
  · refine ⟨?_, ?_, ?_⟩
    · rw [playOne, hp]
      show String.join ((start :: _).map snapshotBlock) ++ summaryLine _ = _
      rw [hall, hlast, List.map_map]
      rfl
    · obtain ⟨_, hblocks, -, houtput⟩ := playOne_eq settings level hp false
      rw [houtput, hblocks rfl, hlast, String.empty_append]
    · rw [playOne, playOne, hp]
      exact ⟨rfl, rfl, rfl⟩

/-- Settings with a board of one column, and with enough steps for the duel. -/
def oneColumn : Settings := { Settings.standard with game := ⟨1, 10, 3, 5, 1⟩ }

/-- The sweep makes its first two ticks in its second and third step, and its shot wins at once in a
single column. -/
theorem trace_of_sweep :
    sweep.validate = .ok () ∧ ∃ blocks : List String, blocks.length = 3 ∧
      blocks[2]? = some ("tick=2 ship=0 alien=(0,0) finished=true won=true\n" ++
        "(prog3\n  0 \x7bleft\x7d\n  1 \x7bshoot\x7d\n  @[right]\n)\n\n") ∧
      (playOne oneColumn Log.Level.debug sweep true).output =
        String.join blocks ++ "won=true ticks=2 steps=3 rounds=0 actions=2\n" ∧
      (playOne oneColumn Log.Level.debug sweep false).output =
        "won=true ticks=2 steps=3 rounds=0 actions=2\n" := by
  obtain ⟨moment, hmoment, t, ht, blocks, line, hlength, hblocks, hline, hprint⟩ :=
    trace_of_playOne oneColumn sweep sweep_valid
  have hmoments : moment 0 = 0 ∧ moment 1 = 2 ∧ moment 2 = 3 := by
    refine ⟨(hmoment 0).unique ⟨rfl, fun k _ => Nat.zero_le k⟩, (hmoment 1).unique ⟨rfl, ?_⟩,
      (hmoment 2).unique ⟨rfl, ?_⟩⟩
    · intro k hk
      match k, hk with
      | 0, hk | 1, hk => cases hk
      | k + 2, _ => exact Nat.le_add_left 2 k
    · intro k hk
      match k, hk with
      | 0, hk | 1, hk | 2, hk => cases hk
      | k + 3, _ => exact Nat.le_add_left 3 k
  obtain ⟨h0, h1, h2⟩ := hmoments
  obtain rfl : t = 2 := by
    refine ht.unique ⟨.inl (by rw [h2]; rfl), fun k hk => ?_⟩
    match k, hk with
    | 0, hk =>
        rw [Set.mem_ofPred_eq, h0] at hk
        exact absurd hk (by decide)
    | 1, hk =>
        rw [Set.mem_ofPred_eq, h1] at hk
        exact absurd hk (by decide)
    | k + 2, _ => exact Nat.le_add_left 2 k
  have hlast := hblocks 2 (Nat.le_refl 2)
  obtain ⟨htraced, hplain, -⟩ := hprint Log.Level.debug
  rw [h2] at hlast hline
  rw [hline] at htraced hplain
  exact ⟨sweep_valid, blocks, hlength, hlast, htraced, hplain⟩

end Command
end Stepwise
