import Stepwise.Proofs.Command.Play
import Stepwise.Proofs.Machine.Accounts
import Stepwise.Proofs.Machine.Replay

/-!
# The command and its budget

The command plays tick by tick and looks at its budget only between two ticks
(`Machine.BetweenTicks`).  It stops at the first of these moments at which the duel is over or
its counter of steps has reached the number in the settings
(`Command.Underway.tickByTick_isLeast`).

An evaluation makes the last step of its budget and no more.  The command makes more if that step
is in the middle of a tick, and it makes none at all with a number that is not positive, which
stands for the default in an evaluation.  So it keeps to the budget of an evaluation in exactly
those cases in which the duel is over in time, or the budget ends together with a tick.
-/

namespace Stepwise

variable {σ : Type} {env : Environment σ}

namespace Machine

variable {m m₀ m' : Machine σ} {quiet : List Transition} {last : Transition}

/-- After `n` steps the machine stands between two ticks: it has made no step yet, or the last one
charged a tick. -/
def BetweenTicks (env : Environment σ) (m : Machine σ) : Nat → Prop
  | 0 => True
  | n + 1 => ticked ((m.afterSteps env n).step env).2 = true

/-- The steps to the next tick lead from one such moment to the next. -/
theorem TicksTo.betweenTicks (h : m.TicksTo env quiet last m') {k : Nat}
    (hm : m₀.afterSteps env k = m) :
    m₀.BetweenTicks env (k + quiet.length + 1) ∧
      ∀ n, k < n → n ≤ k + quiet.length → ¬ m₀.BetweenTicks env n := by
  have hat : ∀ i t, (quiet ++ [last])[i]? = some t →
      (m₀.BetweenTicks env (k + i + 1) ↔ t.event.charges = true) := by
    intro i t ht
    have hstep : (m.afterSteps env i).step env = (_, .ok t) := h.steps.step_at ht
    rw [BetweenTicks, afterSteps_add, hm, hstep]
    rfl
  constructor
  · have hget : (quiet ++ [last])[quiet.length]? = some last := List.getElem?_concat_length
    rw [hat _ _ hget]
    exact h.charges
  · intro n hlt hle
    obtain ⟨i, rfl⟩ := Nat.exists_eq_add_of_lt hlt
    have hi : i < quiet.length := by omega
    have hget : (quiet ++ [last])[i]? = some quiet[i] := by
      rw [List.getElem?_append_left hi, List.getElem?_eq_getElem hi]
    rw [hat _ _ hget, h.quiet _ (List.getElem_mem hi)]
    exact Bool.false_ne_true

/-- A new machine stands between two ticks again and again, each time within the work of its
program. -/
theorem exists_betweenTicks {program : Form} (hp : Program program) (env : Environment σ) (s : σ)
    (k : Nat) :
    ∃ n, k < n ∧ n ≤ k + (Node.form program).work ∧
      (Machine.new program s).BetweenTicks env n := by
  let m := (Machine.new program s).afterSteps env k
  have hm : m.Sound := performAll_sound hp env s _
  have hprogram : m.program = program := (performAll_coherent program s _).1
  obtain ⟨quiet, last, m', hticks, hlength⟩ := hm.exists_ticksTo env
  have hle := hm.coherent.work_le
  rw [hprogram] at hlength hle
  exact ⟨k + quiet.length + 1, by omega, by omega, (hticks.betweenTicks rfl).1⟩

/-- Every step is counted. -/
theorem steps_afterSteps (program : Form) (s : σ) (n : Nat) :
    ((Machine.new program s).afterSteps env n).stats.steps = Int64.ofNat n := by
  rw [stats_of_answers]
  exact Int64.zero_add _

end Machine

namespace Command

open Machine

variable {program : Form} {board : Board} {maxSteps : Int64} {m : Machine Duel}
  {done : List Transition}

/-- The command stops when the machine stands between two ticks and the duel is over, or the counter
of steps has reached the number in the settings. -/
structure StopsAt (program : Form) (board : Board) (maxSteps : Int64) (n : Nat) : Prop where
  between : (Machine.new program (Duel.new board)).BetweenTicks invaders n
  reason : ((Machine.new program (Duel.new board)).afterSteps invaders n).state.finished = true ∨
    ¬ ((Machine.new program (Duel.new board)).afterSteps invaders n).stats.steps < maxSteps

/-- From a moment between two ticks, the command plays to the first such moment at which it
stops. -/
theorem Underway.tickByTick_isLeast (h : Underway program board done m)
    (hbetween : (Machine.new program (Duel.new board)).BetweenTicks invaders done.length)
    (maxSteps : Int64) :
    ∃ n ts, IsLeast {n | done.length ≤ n ∧ StopsAt program board maxSteps n} n ∧
      ts.length = n ∧ ∀ fuel, m.state.ticksLeft ≤ fuel →
        Underway program board ts ((tickByTick maxSteps fuel m).getLastD m) := by
  have hm : (Machine.new program (Duel.new board)).afterSteps invaders done.length = m :=
    h.plays.afterSteps_eq
  induction hleft : m.state.ticksLeft using Nat.strong_induction_on generalizing done m with
  | _ left ih =>
      by_cases hstop : m.state.finished = true ∨ ¬ m.stats.steps < maxSteps
      · refine ⟨done.length, done, ⟨⟨Nat.le_refl _, hbetween, by rwa [hm]⟩, fun n hn => hn.1⟩, rfl,
          fun fuel _ => ?_⟩
        rw [tickByTick_stops hstop]
        exact h
      · obtain ⟨hopen, hsteps⟩ := not_or.mp hstop
        rw [Bool.not_eq_true] at hopen
        rw [not_not] at hsteps
        obtain ⟨quiet, last, m', hticks, hlength⟩ := h.sound.exists_ticksTo invaders
        obtain ⟨hplays, a, hstate⟩ := hticks.plays invaders_lasts hopen
        obtain ⟨hnext, hnone⟩ := hticks.betweenTicks hm
        have hm' : Underway program board (done ++ (quiet ++ [last])) m' :=
          ⟨h.valid, h.plays.trans hplays⟩
        have hlater : (done ++ (quiet ++ [last])).length = done.length + quiet.length + 1 := by
          simp [Nat.add_assoc]
        have hlt : m'.state.ticksLeft < left := by
          rw [← hleft, hstate]
          exact h.onCourse.ticksLeft_advance_lt hopen a
        obtain ⟨n, ts, hleast, hts, hlast⟩ :=
          ih _ hlt hm' (hlater ▸ hnext) hm'.plays.afterSteps_eq rfl
        rw [hlater] at hleast
        obtain ⟨⟨hle, hstops⟩, hfirst⟩ := hleast
        refine ⟨n, ts, ⟨⟨by omega, hstops⟩, ?_⟩, hts, fun fuel hfuel => ?_⟩
        · -- The command does not stop here, and the next moment between ticks is that after `last`.
          rintro k ⟨hk, hstops⟩
          refine hfirst ⟨?_, hstops⟩
          by_contra hearly
          rcases Nat.eq_or_lt_of_le hk with rfl | hk
          · have hreason := hstops.reason
            rw [hm] at hreason
            exact hstop hreason
          · exact hnone k hk (by omega) hstops.between
        · have hmore := hlt.trans_le hfuel
          obtain ⟨fuel, rfl⟩ := Nat.exists_eq_succ_of_ne_zero (Nat.ne_zero_of_lt hmore)
          rw [tickByTick_goes hopen hsteps (h.sound.runTick_eq hticks hlength), List.getLastD_cons]
          exact hlast fuel (Nat.le_of_lt_succ hmore)

theorem not_steps_lt_iff {s : σ} {n : Nat} (hn : n < 2 ^ 63) :
    ¬ ((Machine.new program s).afterSteps env n).stats.steps < maxSteps ↔
      maxSteps.toInt ≤ n := by
  rw [steps_afterSteps, Int64.lt_iff_toInt_lt, Int64.toInt_ofNat_of_lt hn]
  omega

theorem toInt_budget_of_pos (hpos : 0 < maxSteps) :
    (Fitness.budget maxSteps : Int) = maxSteps.toInt :=
  Fitness.toInt_budget (Int64.le_iff_toInt_le.mpr (Int64.lt_iff_toInt_lt.mp hpos))

/-- The command stops when a positive budget ends together with a tick. -/
theorem stopsAt_budget (hpos : 0 < maxSteps)
    (hbetween : (Machine.new program (Duel.new board)).BetweenTicks invaders
      (Fitness.budget maxSteps)) :
    StopsAt program board maxSteps (Fitness.budget maxSteps) := by
  have hbudget := toInt_budget_of_pos hpos
  have hword := maxSteps.toInt_lt
  exact ⟨hbetween, .inr ((not_steps_lt_iff (by omega)).mpr (by omega))⟩

section

variable {n : Nat} (hn : IsLeast {n | StopsAt program board maxSteps n} n)

include hn

/-- A number that is not positive lets the command make no step. -/
theorem eq_zero_of_nonpos (hzero : maxSteps ≤ 0) : n = 0 :=
  Nat.le_zero.mp (hn.2 ⟨trivial, .inr (Int64.not_lt.mpr hzero)⟩)

/-- The command is over its budget by less than the work of the program. -/
theorem lt_budget_add_work (hp : Program program) (hpos : 0 < maxSteps)
    (hwraps : maxSteps.toInt + (Node.form program).work ≤ 2 ^ 63) :
    n < Fitness.budget maxSteps + (Node.form program).work := by
  have hbudget := toInt_budget_of_pos hpos
  have hpos' : 0 < maxSteps.toInt := Int64.lt_iff_toInt_lt.mp hpos
  obtain ⟨k, hlt, hle, hbetween⟩ :=
    exists_betweenTicks hp invaders (Duel.new board) (Fitness.budget maxSteps - 1)
  have hstop := hn.2 ⟨hbetween, .inr ((not_steps_lt_iff (by omega)).mpr (by omega))⟩
  omega

/-- If the command makes the steps of its budget, or fewer because the duel is over, then its
budget is positive: a new duel is not over. -/
theorem pos_of_keeps
    (hspent :
      ((Machine.new program (Duel.new board)).afterSteps invaders n).state.finished = false →
        n = Fitness.budget maxSteps) : 0 < maxSteps := by
  by_contra hneg
  obtain rfl := eq_zero_of_nonpos hn (Int64.not_lt.mp hneg)
  have hzero : 0 = Fitness.budget maxSteps := hspent rfl
  rw [Fitness.budget_eq, if_neg hneg] at hzero
  cases hzero

/-- The command keeps to the budget of an evaluation if and only if the budget is positive and the
duel is over in time, or the budget ends together with a tick. -/
theorem Underway.keeps_iff (h : Underway program board done m) (hlength : done.length = n) :
    (n ≤ Fitness.budget maxSteps ∧
      (((Machine.new program (Duel.new board)).afterSteps invaders n).state.finished = false →
        n = Fitness.budget maxSteps)) ↔
    0 < maxSteps ∧
      ((∃ k ≤ Fitness.budget maxSteps,
        ((Machine.new program (Duel.new board)).afterSteps invaders k).state.finished = true) ∨
      (Machine.new program (Duel.new board)).BetweenTicks invaders (Fitness.budget maxSteps)) := by
  constructor
  · rintro ⟨hle, hspent⟩
    refine ⟨pos_of_keeps hn hspent, ?_⟩
    cases hover : ((Machine.new program (Duel.new board)).afterSteps invaders n).state.finished with
    | true => exact .inl ⟨n, hle, hover⟩
    | false => exact .inr (hspent hover ▸ hn.1.between)
  · rintro ⟨hpos, hcases⟩
    have hbudget := toInt_budget_of_pos hpos
    have hword := maxSteps.toInt_lt
    have hle : n ≤ Fitness.budget maxSteps := by
      rcases hcases with ⟨k, hk, hover⟩ | hbetween
      · rw [← hlength]
        exact Nat.le_trans (h.plays.length_le_of_over hover) hk
      · exact hn.2 (stopsAt_budget hpos hbetween)
    refine ⟨hle, fun hopen => ?_⟩
    rcases hn.1.reason with hover | hspent
    · rw [hover] at hopen
      cases hopen
    · have hreached := (not_steps_lt_iff (by omega)).mp hspent
      omega

end

/-- How the command keeps to the number of steps in the settings.

`B` is the budget of an evaluation with these settings, and `n` the number of steps that the command
makes.  It makes at most `B` steps, and exactly `B` if the duel is not over then, if and only if
the number in the settings is positive and the duel is over within `B` steps or step number `B`
charges a tick.  If the number is not positive, it makes no step.  Otherwise it runs over the budget
by less than the work of the program, as long as the counter of steps does not wrap. -/
theorem budget_of_playOne (settings : Settings) (program : Form) (hp : program.validate = .ok ()) :
    let start := Machine.new program (Duel.new settings.game)
    let after := start.afterSteps invaders
    let B := if 0 < settings.maxSteps then settings.maxSteps.toInt.toNat else 100000
    ∃ n, IsLeast {n | StopsAt program settings.game settings.maxSteps n} n ∧
      (∀ (level : Log.Level) (trace : Bool), ∃ blocks, (trace = false → blocks = "") ∧
        (playOne settings level program trace).error? = none ∧
        (playOne settings level program trace).output = blocks ++ summaryLine (after n)) ∧
      (after n).stats.steps = Int64.ofNat n ∧
      (n ≤ B ∧ ((after n).state.finished = false → n = B) ↔
        0 < settings.maxSteps ∧
          ((∃ k ≤ B, (after k).state.finished = true) ∨ start.BetweenTicks invaders B)) ∧
      (settings.maxSteps ≤ 0 → n = 0) ∧
      (0 < settings.maxSteps →
        settings.maxSteps.toInt + (Node.form program).work ≤ 2 ^ 63 →
        n < B + (Node.form program).work) := by
  intro start after B
  have hprogram : Program program := Form.validate_eq_ok_iff.mp hp
  have hB : B = Fitness.budget settings.maxSteps := (Fitness.budget_eq settings.maxSteps).symm
  obtain ⟨n, ts, ⟨⟨-, hstops⟩, hfirst⟩, hlength, hlast⟩ :=
    (Underway.new hprogram settings.game).tickByTick_isLeast trivial settings.maxSteps
  have hfinal := hlast _ (Nat.le_of_eq (Duel.ticksLeft_new settings.game))
  have hn : IsLeast {n | StopsAt program settings.game settings.maxSteps n} n :=
    ⟨hstops, fun k hk => hfirst ⟨Nat.zero_le k, hk⟩⟩
  refine ⟨n, hn, fun level trace => ?_, steps_afterSteps .., ?_, eq_zero_of_nonpos hn, ?_⟩
  · obtain ⟨blocks, hblocks, herror, houtput⟩ := playOne_eq settings level hp trace
    refine ⟨blocks, hblocks, herror, houtput.trans ?_⟩
    rw [← hfinal.plays.afterSteps_eq, hlength]
  · rw [hB]
    exact hfinal.keeps_iff hn hlength
  · rw [hB]
    exact lt_budget_add_work hn hprogram

/-- Settings with a board of one column and a budget of a single step. -/
def hurried : Settings := { Settings.standard with game := ⟨1, 10, 3, 5, 1⟩, maxSteps := 1 }

theorem sweep_valid : sweep.validate = .ok () :=
  Form.validate_eq_ok_iff.mpr (.prog3 (.leaf _) (.leaf _) (.leaf _))

/-- The first tick of the sweep is its second step, so a budget of one step is overrun by one. -/
theorem budget_of_sweep :
    ¬ (Machine.new sweep (Duel.new hurried.game)).BetweenTicks invaders 1 ∧
      ∃ n, IsLeast {n | StopsAt sweep hurried.game 1 n} n ∧ n = 2 ∧
        (playOne hurried Log.Level.debug sweep false).output =
          "won=false ticks=1 steps=2 rounds=0 actions=1\n" := by
  have hmiddle : ¬ (Machine.new sweep (Duel.new hurried.game)).BetweenTicks invaders 1 := nofun
  obtain ⟨n, hleast, hprint, -⟩ := budget_of_playOne hurried sweep sweep_valid
  have hle : n ≤ 2 := hleast.2 ⟨rfl, .inr (by decide)⟩
  obtain rfl | rfl | rfl : n = 0 ∨ n = 1 ∨ n = 2 := by omega
  · exact absurd hleast.1.reason (by decide)
  · exact absurd hleast.1.between hmiddle
  · obtain ⟨blocks, hblocks, -, houtput⟩ := hprint Log.Level.debug false
    refine ⟨hmiddle, 2, hleast, rfl, ?_⟩
    rw [houtput, hblocks rfl]
    rfl

/-- A single step is not what the command makes when the settings ask for one. -/
theorem sweep_overruns :
    ¬ ∀ (settings : Settings) (program : Form), program.validate = .ok () →
      let start := Machine.new program (Duel.new settings.game)
      let final := (tickByTick settings.maxSteps (Duel.horizon settings.game.effective)
        start).getLastD start
      let B := if 0 < settings.maxSteps then settings.maxSteps.toInt.toNat else 100000
      final.stats.steps.toInt ≤ B ∧
        (final.state.finished = false → final.stats.steps.toInt = B) := by
  intro h
  obtain ⟨hle, -⟩ := h hurried sweep sweep_valid
  exact absurd hle (by decide)

end Command

end Stepwise
