import Stepwise.Command.Play
import Stepwise.Proofs.Fitness.Duel

/-!
# The ways to play a duel agree

A duel is played in three ways.  An evaluation looks at the game and at its budget after every
step.  The command looks at both after every tick.  The loop that plays to the end has no budget
at all.  None of them makes a step when the duel is over (`Machine.Plays`).

A duel can only end in a tick, so the first two find it over at the same step, unless the
budget stops one of them before.  All three therefore end with the same machine whenever the
evaluation does not exhaust its budget (`ways_agree`).
-/

namespace Stepwise

open Command

/-! ## Ticks of the duel and of the machine -/

/-- As long as a duel is not over, it counts the ticks that it is told. -/
theorem Rule.duel_ticks {program : Form} {stack stack' : Stack Frame} {g g' : Duel} {e : Event}
    (hr : Rule invaders program stack g e stack' g') (hopen : g.finished = false) :
    g'.ticks = g.ticks + Int64.ofNat e.told.length := by
  cases hr with
  | act _ _ _ hadv =>
      obtain rfl : (Duel.advance _ g).2 = g' := congrArg Prod.snd hadv
      exact Duel.advance_ticks hopen _
  | round _ hadv =>
      obtain rfl : (Duel.advance _ g).2 = g' := congrArg Prod.snd hadv
      exact Duel.advance_ticks hopen _
  | observe _ _ _ hread =>
      obtain rfl : (invaders.read _ g).2 = g' := congrArg Prod.snd hread
      rw [invaders_lasts.read]
      exact (Int64.add_zero _).symm
  | _ => exact (Int64.add_zero _).symm

namespace Machine

variable {program : Form} {m m' : Machine Duel} {ts : List Transition}

theorem Plays.duel_ticks (h : Plays invaders m ts m') :
    m'.state.ticks = m.state.ticks + Int64.ofNat (told ts).length := by
  induction h with
  | refl => exact (Int64.add_zero _).symm
  | step hopen hstep _ ih =>
      rw [ih, (rule_of_step hstep).1.duel_ticks hopen, told_cons, List.length_append,
        Int64.ofNat_add, Int64.add_assoc]

/-- The duel has counted the ticks that the machine has charged. -/
theorem Plays.ticks_agree {board : Board}
    (h : Plays invaders (Machine.new program (Duel.new board)) ts m) :
    m.state.ticks = m.stats.ticks := by
  have hduel : m.state.ticks = 0 + Int64.ofNat (told ts).length := h.duel_ticks
  have hmachine : m.stats.ticks = 0 + Int64.ofNat (told ts).length := h.steps.ticks_eq
  rw [hduel, hmachine]

end Machine

/-! ## Tick by tick -/

namespace Command

variable {program : Form} {board : Board} {maxSteps : Int64} {m m' final : Machine Duel}
  {ts done : List Transition}

theorem tickByTick_stops (h : m.state.finished = true ∨ ¬ m.stats.steps < maxSteps) (fuel : Nat) :
    tickByTick maxSteps fuel m = [] := by
  cases fuel with
  | zero => rfl
  | succ fuel =>
      rw [tickByTick]
      rcases h with h | h
      · simp [h]
      · simp [h]

theorem tickByTick_goes (hopen : m.state.finished = false) (hsteps : m.stats.steps < maxSteps)
    {r : Except Malformed Bool} (hrun : m.runTick invaders = (m', r)) (fuel : Nat) :
    tickByTick maxSteps (fuel + 1) m = m' :: tickByTick maxSteps fuel m' := by
  rw [tickByTick, hrun]
  simp [hopen, hsteps]

/-- A machine that a new machine has come to while playing a duel. -/
structure Underway (program : Form) (board : Board) (done : List Transition) (m : Machine Duel) :
    Prop where
  valid : Program program
  plays : Machine.Plays invaders (Machine.new program (Duel.new board)) done m

namespace Underway

theorem new (hp : Program program) (board : Board) :
    Underway program board [] (Machine.new program (Duel.new board)) := ⟨hp, .refl⟩

theorem sound (h : Underway program board done m) : m.Sound :=
  (Machine.Sound.new h.valid _).steps h.plays.steps

theorem onCourse (h : Underway program board done m) : m.state.OnCourse :=
  h.plays.steps.keeps invaders_lasts (Duel.new_onCourse board)

/-- The next tick of an open duel. -/
theorem tick (h : Underway program board done m) (hopen : m.state.finished = false) :
    ∃ ts m', m.runTick invaders = (m', .ok m'.state.finished) ∧
      Underway program board (done ++ ts) m' ∧ m'.state.ticksLeft < m.state.ticksLeft := by
  obtain ⟨ts, m', hplays, -, hrun, hleft⟩ := h.sound.plays_tick invaders_lasts h.onCourse hopen
  exact ⟨ts, m', hrun, ⟨h.valid, h.plays.trans hplays⟩, hleft⟩

/-- Playing tick by tick makes no step when the duel is over, and stops when it is or when the
budget is used up.  As many ticks as are left are enough for that: with more of them allowed,
nothing else is done. -/
theorem tickByTick_eq (h : Underway program board done m) (maxSteps : Int64) :
    ∃ ms, (∀ fuel, m.state.ticksLeft ≤ fuel → tickByTick maxSteps fuel m = ms) ∧
      (∃ ts, Underway program board ts (ms.getLastD m)) ∧
      ((ms.getLastD m).state.finished = true ∨ ¬ (ms.getLastD m).stats.steps < maxSteps) := by
  induction hleft : m.state.ticksLeft using Nat.strong_induction_on generalizing done m with
  | _ n ih =>
      by_cases hstop : m.state.finished = true ∨ ¬ m.stats.steps < maxSteps
      · exact ⟨[], fun fuel _ => tickByTick_stops hstop fuel, ⟨done, h⟩, hstop⟩
      · obtain ⟨hopen, hsteps⟩ := not_or.mp hstop
        rw [Bool.not_eq_true] at hopen
        obtain ⟨ts, m', hrun, hm', hlt⟩ := h.tick hopen
        rw [hleft] at hlt
        obtain ⟨ms, hms, hlast, hend⟩ := ih _ hlt hm' rfl
        refine ⟨m' :: ms, fun fuel hfuel => ?_, ?_, ?_⟩
        · have hmore := hlt.trans_le hfuel
          obtain ⟨fuel, rfl⟩ := Nat.exists_eq_succ_of_ne_zero (Nat.ne_zero_of_lt hmore)
          rw [tickByTick_goes hopen (not_not.mp hsteps) hrun, hms fuel (Nat.le_of_lt_succ hmore)]
        · rwa [List.getLastD_cons]
        · rwa [List.getLastD_cons]

/-- A machine that has stopped for the end of the duel, or for a budget within which the duel
ends, is at the end of the duel. -/
theorem eq_of_over (h : Underway program board done m)
    (hplays : Machine.Plays invaders (Machine.new program (Duel.new board)) ts final)
    (hover : final.state.finished = true) (hle : (ts.length : Int) ≤ maxSteps.toInt)
    (hend : m.state.finished = true ∨ ¬ m.stats.steps < maxSteps) : m = final := by
  obtain ⟨rest, rfl, hrest⟩ := hplays.append_of_over hover h.plays
  cases hrest with
  | refl => rfl
  | step hopen =>
      rcases hend with hend | hend
      · exact nomatch hopen.symm.trans hend
      · rw [List.length_append, List.length_cons] at hle
        have hdone : done.length ≤ Fitness.budget maxSteps := Fitness.le_budget (by omega)
        rw [Int64.lt_iff_toInt_lt, h.plays.toInt_steps hdone] at hend
        omega

end Underway

/-! ## The three ways -/

/-- The command prints the line about the machine after the last tick, and nothing else unless it
traces. -/
theorem playOne_eq (settings : Settings) (level : Log.Level) (hp : program.validate = .ok ())
    (trace : Bool) :
    let start := Machine.new program (Duel.new settings.game)
    let ticks := tickByTick settings.maxSteps (Duel.horizon settings.game.effective) start
    ∃ blocks, (trace = false → blocks = "") ∧
      (playOne settings level program trace).error? = none ∧
      (playOne settings level program trace).output =
        blocks ++ summaryLine (ticks.getLastD start) := by
  intro start ticks
  rw [playOne, hp]
  refine ⟨String.join (if trace then (start :: ticks).map snapshotBlock else []), ?_, rfl, rfl⟩
  rintro rfl
  rfl

/-- The three ways to play a duel with a valid program and a positive budget.

`r` is the evaluation, `toEnd` the machine that was played to the end without a budget, and
`byTicks` the machine of the command, which does not depend on the limit that is put on its
ticks.  All three have made steps only while the duel was not over, so the duel has counted the
ticks that they have charged.

If the evaluation has not exhausted its budget, the three machines are the same, with the duel
over.  The answer of the second and the line that the command prints say of the duel and of the
counters what the evaluation says. -/
theorem ways_agree (settings : Settings) (program : Form) (hp : program.validate = .ok ())
    (hmax : 1 ≤ settings.maxSteps) :
    let start := Machine.new program (Duel.new settings.game)
    let T := Duel.horizon settings.game.effective
    let toEnd := (start.runGame invaders T).1
    let byTicks := (tickByTick settings.maxSteps T start).getLastD start
    ∃ (r : Fitness.Run Duel) (result : Fitness.Result),
      Fitness.run invaders settings.maxSteps (fun _ _ => false) (some program)
        (some (Duel.new settings.game)) = .ok r ∧
      r.outcome invaders = .ok result ∧
      (∀ fuel, T ≤ fuel →
        tickByTick settings.maxSteps fuel start = tickByTick settings.maxSteps T start) ∧
      (∀ m ∈ [r.final, toEnd, byTicks],
        (∃ ts, Machine.Plays invaders start ts m) ∧ m.state.ticks = m.stats.ticks) ∧
      (result.exhausted = false →
        r.final.state.finished = true ∧ r.final.state.won = result.won ∧
        r.final.stats = result.stats ∧
        toEnd = r.final ∧ byTicks = r.final ∧
        (∃ n, ∀ fuel, n ≤ fuel → start.untilFinished invaders fuel = (r.final, .ok ())) ∧
        start.runGame invaders T = (r.final, .ok result.won) ∧
        ∀ (level : Log.Level) (trace : Bool), ∃ blocks, (trace = false → blocks = "") ∧
          (playOne settings level program trace).error? = none ∧
          (playOne settings level program trace).output = blocks ++
            ("won=" ++ Text.flag result.won ++ " ticks=" ++ toString result.stats.ticks
              ++ " steps=" ++ toString result.stats.steps
              ++ " rounds=" ++ toString result.stats.rounds
              ++ " actions=" ++ toString result.stats.actions ++ "\n")) := by
  intro start T toEnd byTicks
  have hprogram : Program program := Form.validate_eq_ok_iff.mp hp
  obtain ⟨ts, m, hplays, hle, hend, hrun⟩ :=
    Fitness.exists_run hprogram invaders (Duel.new settings.game) settings.maxSteps
  obtain ⟨all, final, hall, hover, hbound⟩ := Duel.exists_plays_to_end hprogram settings.game
  have hgame : start.runGame invaders T = (final, .ok final.state.won) :=
    hall.runGame_eq hover hbound
  obtain ⟨ms, hms, ⟨some', hlast⟩, hstop⟩ :=
    (Underway.new hprogram settings.game).tickByTick_eq settings.maxSteps
  have hticks : tickByTick settings.maxSteps T start = ms :=
    hms T (Nat.le_of_eq (Duel.ticksLeft_new settings.game))
  have htoEnd : toEnd = final := congrArg Prod.fst hgame
  have hbyTicks : byTicks = ms.getLastD start := congrArg (List.getLastD · start) hticks
  refine ⟨⟨program, Duel.new settings.game, m, .complete⟩, _, hrun, rfl,
    fun fuel hfuel => (hms fuel hfuel).trans hticks.symm, ?_, fun hshort => ?_⟩
  · have hone : ∀ {ts m}, Machine.Plays invaders start ts m →
        (∃ ts, Machine.Plays invaders start ts m) ∧ m.state.ticks = m.stats.ticks :=
      fun h => ⟨⟨_, h⟩, h.ticks_agree⟩
    rw [htoEnd, hbyTicks]
    simp only [List.forall_mem_cons]
    exact ⟨hone hplays, hone hall, hone hlast.plays, List.forall_mem_nil _⟩
  · -- The evaluation has seen the duel over, so it is the run to the end.
    have hfinished : m.state.finished = true := by
      simpa [Fitness.Run.report, invaders] using hshort
    obtain ⟨rfl, rfl⟩ := hplays.eq_of_over hfinished hall hover
    have hwon : (Fitness.Run.report invaders ⟨program, Duel.new settings.game, m, .complete⟩).won =
        m.state.won := by
      simp [Fitness.Run.report, invaders, hfinished]
    have hsame : byTicks = m := by
      have hbudget := Fitness.toInt_budget hmax
      rw [hbyTicks]
      exact hlast.eq_of_over hplays hover (by omega) hstop
    rw [hwon]
    refine ⟨hfinished, rfl, rfl, htoEnd, hsame,
      ⟨ts.length, fun fuel hfuel => hplays.untilFinished_eq hfinished hfuel⟩, hgame,
      fun level trace => ?_⟩
    obtain ⟨blocks, hblocks, herror, houtput⟩ := playOne_eq settings level hp trace
    refine ⟨blocks, hblocks, herror, houtput.trans ?_⟩
    show blocks ++ summaryLine byTicks = _
    rw [hsame]
    rfl

/-- Shoot, and then step aside. -/
def shooter : Form := Form.prog2 (Leaf.move .shoot).node (Leaf.move .left).node

/-- Settings with a board of one column, on which every shot hits. -/
def narrow : Settings := { Settings.standard with game := ⟨1, 2, 1, 1, 0⟩ }

/-- The shooter hits with its second step. -/
theorem shooter_plays :
    ∃ ts m, Machine.Plays invaders (Machine.new shooter (Duel.new narrow.game)) ts m ∧
      ts.length ≤ Fitness.budget narrow.maxSteps ∧ m.state.finished = true ∧
      m.state.won = true ∧ m.stats = ⟨2, 1, 0, 1⟩ :=
  ⟨_, _, .step rfl rfl (.step rfl rfl .refl), by decide, rfl, rfl, rfl⟩

theorem ways_agree_of_shooter :
    ∃ r result,
      Fitness.run invaders narrow.maxSteps (fun _ _ => false) (some shooter)
        (some (Duel.new narrow.game)) = .ok r ∧
      r.outcome invaders = .ok result ∧ result.exhausted = false ∧
      (Machine.new shooter (Duel.new narrow.game)).runGame invaders 1 = (r.final, .ok true) ∧
      (playOne narrow Log.Level.debug shooter false).output =
        "won=true ticks=1 steps=2 rounds=0 actions=1\n" := by
  have hprogram : Program shooter := .prog2 (.leaf _) (.leaf _)
  obtain ⟨r, result, hrun, houtcome, -, -, hagree⟩ :=
    ways_agree narrow shooter (Form.validate_eq_ok_iff.mpr hprogram) (by decide)
  obtain ⟨ts, m, hplays, hle, hover, hwon, hstats⟩ := shooter_plays
  obtain rfl : ⟨shooter, Duel.new narrow.game, m, .complete⟩ = r :=
    Except.ok.inj ((hplays.run_eq hprogram hle (.inl hover)).symm.trans hrun)
  have hshort : result.exhausted = false := by
    rw [← Except.ok.inj houtcome]
    simp [Fitness.Run.report, invaders, hover]
  obtain ⟨-, hwon', hstats', -, -, -, hgame, hprint⟩ := hagree hshort
  obtain ⟨blocks, hblocks, -, houtput⟩ := hprint Log.Level.debug false
  have hresult : result.won = true := hwon'.symm.trans hwon
  have hcounted : result.stats = ⟨2, 1, 0, 1⟩ := hstats'.symm.trans hstats
  rw [hresult] at hgame
  rw [hblocks rfl, hresult, hcounted] at houtput
  exact ⟨_, result, hrun, houtcome, hshort, hgame, houtput⟩

end Command

end Stepwise
