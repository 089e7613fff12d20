import Stepwise.Proofs.Fitness.Batch
import Stepwise.Proofs.Machine.Plays

/-!
# What the budget of an evaluation means

An evaluation plays a game until it is over, or until as many steps were made as the budget
has.  It looks at the game first, so a game that is over just when the budget is used up counts
as over.

A run that plays a game decides what the evaluation is (`Machine.Plays.run_eq`), if it stays
within the budget and ends with the game over or the budget used up.  There is such a run for
every valid program (`Fitness.exists_run`).
-/

namespace Stepwise

variable {σ : Type} {env : Environment σ} {program : Form} {s : σ} {maxSteps : Int64}

namespace Fitness

theorem budget_eq (maxSteps : Int64) :
    budget maxSteps = if 0 < maxSteps then maxSteps.toInt.toNat else 100000 := by
  unfold budget
  by_cases h : 0 < maxSteps
  · rw [if_pos h, if_neg (Int64.not_le.mpr h)]
  · rw [if_neg h, if_pos (Int64.not_lt.mp h)]
    rfl

/-- A budget is a word, so a word can count the steps that stay within it. -/
theorem toInt_ofNat_of_le_budget {n : Nat} (h : n ≤ budget maxSteps) :
    (Int64.ofNat n).toInt = n := by
  unfold budget at h
  have hlt := (if maxSteps ≤ 0 then defaultMaxSteps else maxSteps).toInt_lt
  exact Int64.toInt_ofNat_of_lt (by omega)

theorem toInt_budget (h : 1 ≤ maxSteps) : (budget maxSteps : Int) = maxSteps.toInt := by
  have hpos : 0 < maxSteps := Int64.lt_of_lt_of_le (by decide) h
  have hnonneg : 0 ≤ maxSteps.toInt := Int.le_of_lt (Int64.lt_iff_toInt_lt.mp hpos)
  rw [budget_eq, if_pos hpos, Int.toNat_of_nonneg hnonneg]

theorem le_budget {n : Nat} (h : (n : Int) ≤ maxSteps.toInt) : n ≤ budget maxSteps := by
  rw [budget_eq]
  split
  next => omega
  next hpos =>
    have hzero : maxSteps.toInt ≤ 0 := Int64.le_iff_toInt_le.mp (Int64.not_lt.mp hpos)
    omega

end Fitness

namespace Machine.Plays

variable {m m' : Machine σ} {ts : List Transition}

/-- An evaluation follows a run during which it does not see that it was called off. -/
theorem playOn_add (h : Plays env m ts m') {cancelled : Nat → σ → Bool} {done : Nat}
    (hunseen : ∀ k < ts.length, (done + k) % Fitness.checkEvery = 0 →
      cancelled (done + k) (m.afterSteps env k).state = false) (left : Nat) :
    Fitness.playOn env cancelled (ts.length + left) done m =
      Fitness.playOn env cancelled left (done + ts.length) m' := by
  induction h generalizing done with
  | refl => rw [List.length_nil, Nat.zero_add, Nat.add_zero]
  | @step m₁ m₂ _ t rest hopen hstep _ ih =>
      have hnow : done % Fitness.checkEvery = 0 → cancelled done m₁.state = false :=
        hunseen 0 (Nat.succ_pos _)
      have hlater : ∀ k < rest.length, (done + 1 + k) % Fitness.checkEvery = 0 →
          cancelled (done + 1 + k) (m₂.afterSteps env k).state = false := by
        intro k hk
        have hk' := hunseen (k + 1) (Nat.succ_lt_succ hk)
        rwa [afterSteps_succ, hstep, ← Nat.add_assoc, Nat.add_right_comm] at hk'
      rw [List.length_cons, Nat.succ_add,
        Fitness.playOn_unseen (by rw [hopen]; nofun) hnow hstep, ih hlater, Nat.add_assoc,
        Nat.add_comm 1]

/-- An evaluation that nobody calls off makes the steps of a run that ends with the game over or
with the last step allowed. -/
theorem playOn_eq (h : Plays env m ts m') {left : Nat} (hle : ts.length ≤ left)
    (hend : env.finished m'.state = true ∨ ts.length = left) (done : Nat) :
    Fitness.playOn env (fun _ _ => false) left done m = (.complete, m') := by
  obtain ⟨rest, rfl⟩ := Nat.exists_eq_add_of_le hle
  rw [h.playOn_add (fun _ _ _ => rfl)]
  exact Fitness.playOn_over (hend.imp_right fun hspent => by omega) _

/-- The evaluation of a valid program is a run that ends so. -/
theorem run_eq (h : Plays env (Machine.new program s) ts m) (hp : Program program)
    (hle : ts.length ≤ Fitness.budget maxSteps)
    (hend : env.finished m.state = true ∨ ts.length = Fitness.budget maxSteps) :
    Fitness.run env maxSteps (fun _ _ => false) (some program) (some s) =
      .ok ⟨program, s, m, .complete⟩ := by
  rw [Fitness.run_of_program hp, Fitness.Run.play, h.playOn_eq hle hend]

/-- The steps counted by a new machine are those of its run, if that stays within a budget. -/
theorem toInt_steps (h : Plays env (Machine.new program s) ts m)
    (hle : ts.length ≤ Fitness.budget maxSteps) : m.stats.steps.toInt = ts.length := by
  have hsteps : m.stats.steps = 0 + Int64.ofNat ts.length := h.steps.steps_eq
  rw [hsteps, Int64.zero_add, Fitness.toInt_ofNat_of_le_budget hle]

end Machine.Plays

namespace Fitness

/-- The evaluation of a valid program is a run within the budget, at the end of which the game is
over or the budget used up. -/
theorem exists_run (hp : Program program) (env : Environment σ) (s : σ) (maxSteps : Int64) :
    ∃ ts m, Machine.Plays env (Machine.new program s) ts m ∧ ts.length ≤ budget maxSteps ∧
      (env.finished m.state = true ∨ ts.length = budget maxSteps) ∧
      run env maxSteps (fun _ _ => false) (some program) (some s) =
        .ok ⟨program, s, m, .complete⟩ := by
  obtain ⟨ts, m, hplays, hle, hend⟩ := (Machine.Sound.new hp s).exists_plays env (budget maxSteps)
  exact ⟨ts, m, hplays, hle, hend, hplays.run_eq hp hle hend⟩

/-- What the budget of an evaluation means, when nobody calls it off.

`B` is the budget, and `after n` the new machine after `n` steps.  If the game is over after `n`
steps for the first time, and `n` is within the budget, then the evaluation ends there and says
who has won.  Otherwise the budget is exhausted.  In both cases the counters and the game are
those after as many steps as were counted.  So an evaluation that has not exhausted its budget
is the same with any larger one. -/
theorem run_of_budget (env : Environment σ) (program : Form) (hp : program.validate = .ok ())
    (s : σ) (maxSteps : Int64) :
    let B := if 0 < maxSteps then maxSteps.toInt.toNat else 100000
    let after := (Machine.new program s).afterSteps env
    let ended := {n | env.finished (after n).state = true}
    ∃ (r : Run σ) (result : Result),
      run env maxSteps (fun _ _ => false) (some program) (some s) = .ok r ∧
      r.outcome env = .ok result ∧ result.program = program ∧
      (∀ n, IsLeast ended n → n ≤ B →
        result.finished = true ∧ result.exhausted = false ∧
        result.won = env.won (after n).state ∧ result.stats.steps.toInt = n) ∧
      ((¬ ∃ n, IsLeast ended n ∧ n ≤ B) →
        result.finished = false ∧ result.won = false ∧ result.exhausted = true ∧
        result.stats.steps.toInt = B) ∧
      r.final = after result.stats.steps.toInt.toNat ∧
      result.stats = (after result.stats.steps.toInt.toNat).stats ∧
      (result.exhausted = false → ∀ more, B ≤ budget more →
        run env more (fun _ _ => false) (some program) (some s) = .ok r) := by
  have hprogram : Program program := Form.validate_eq_ok_iff.mp hp
  intro B after ended
  have hB : B = budget maxSteps := (budget_eq maxSteps).symm
  obtain ⟨ts, m, hplays, hle, hend, hrun⟩ := exists_run hprogram env s maxSteps
  have hsteps : m.stats.steps.toInt = ts.length := hplays.toInt_steps hle
  have hafter : after ts.length = m := hplays.afterSteps_eq
  refine ⟨⟨program, s, m, .complete⟩, _, hrun, rfl, rfl, fun n hn hnB => ?_, fun hnone => ?_,
    ?_, ?_, fun hshort more hmore => ?_⟩
  · have hover : env.finished m.state = true := by
      rcases hend with hend | hend
      · exact hend
      · -- The budget is used up, but not before the game is over.
        have hsame : n = ts.length :=
          Nat.le_antisymm (hend ▸ hB ▸ hnB) (hplays.length_le_of_over hn.1)
        rw [← hafter, ← hsame]
        exact hn.1
    have hsame : n = ts.length := hn.unique (hplays.isLeast hover)
    refine ⟨hover, by simp [Run.report, hover], ?_, by rw [hsame]; exact hsteps⟩
    rw [hsame, hafter]
    simp [Run.report, hover]
  · have hopen : env.finished m.state = false := by
      cases hover : env.finished m.state with
      | false => rfl
      | true => exact absurd ⟨ts.length, hplays.isLeast hover, hB ▸ hle⟩ hnone
    have hlength : ts.length = B := by
      rcases hend with hend | hend
      · rw [hopen] at hend
        cases hend
      · exact hend.trans hB.symm
    refine ⟨hopen, by simp [Run.report, hopen], by simp [Run.report, hopen], ?_⟩
    exact hsteps.trans (by rw [hlength])
  · show m = after m.stats.steps.toInt.toNat
    rw [hsteps, Int.toNat_natCast, hafter]
  · show m.stats = (after m.stats.steps.toInt.toNat).stats
    rw [hsteps, Int.toNat_natCast, hafter]
  · have hover : env.finished m.state = true := by
      simpa [Run.report] using hshort
    exact hplays.run_eq hprogram (Nat.le_trans hle (hB ▸ hmore)) (.inl hover)

/-- The script of a game that is over and won after one tick. -/
def oneTick : Script := { finishAfter := 1, win := .always }

/-- The duelist makes seven steps to its first tick.  With a budget of seven the game is over and
won, and with six the budget is exhausted. -/
theorem run_of_duelist :
    let s : Scripted := ⟨oneTick, [], 0, 0, rfl⟩
    (∃ r result, run scriptedGame 7 (fun _ _ => false) (some duelist) (some s) = .ok r ∧
      r.outcome scriptedGame = .ok result ∧ result.finished = true ∧ result.exhausted = false ∧
      result.won = true ∧ result.stats.steps.toInt = 7) ∧
    (∃ r result, run scriptedGame 6 (fun _ _ => false) (some duelist) (some s) = .ok r ∧
      r.outcome scriptedGame = .ok result ∧ result.finished = false ∧ result.exhausted = true ∧
      result.won = false ∧ result.stats.steps.toInt = 6) := by
  intro s
  let ended := {n | scriptedGame.finished
    ((Machine.new duelist s).afterSteps scriptedGame n).state = true}
  have hopen : ∀ n < 7, scriptedGame.finished
      ((Machine.new duelist s).afterSteps scriptedGame n).state = false := by decide
  have hover : 7 ∈ ended :=
    (by decide : scriptedGame.finished
      ((Machine.new duelist s).afterSteps scriptedGame 7).state = true)
  have hleast : IsLeast ended 7 := by
    refine ⟨hover, fun n hn => Nat.le_of_not_lt fun hlt => ?_⟩
    exact nomatch (Eq.symm hn).trans (hopen n hlt)
  constructor
  · obtain ⟨r, result, hrun, houtcome, -, hfirst, -⟩ :=
      run_of_budget scriptedGame duelist duelist_valid s 7
    obtain ⟨hfinished, hshort, hwon, hsteps⟩ := hfirst 7 hleast (by decide)
    exact ⟨r, result, hrun, houtcome, hfinished, hshort, hwon, hsteps⟩
  · obtain ⟨r, result, hrun, houtcome, -, -, hnone, -⟩ :=
      run_of_budget scriptedGame duelist duelist_valid s 6
    obtain ⟨hfinished, hwon, hshort, hsteps⟩ := hnone fun ⟨n, hn, hle⟩ => by
      have hseven : n = 7 := hn.unique hleast
      subst hseven
      exact absurd hle (by decide)
    exact ⟨r, result, hrun, houtcome, hfinished, hshort, hwon, hsteps⟩

end Fitness

end Stepwise
