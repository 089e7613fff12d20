import Stepwise.Proofs.Fitness.Budget
import Stepwise.Proofs.Game.Course

/-!
# Evaluating a program in a duel

A valid program plays every duel to its end.  A duel lasts at most as many ticks as the horizon
of its board has, and the machine comes to each of them within the work of the program.  So the
steps until the duel is over for the first time are bounded by the product
(`Duel.exists_plays_to_end`), and an evaluation with a budget of as many steps finishes the duel.
-/

namespace Stepwise

variable {program : Form}

/-- A valid program plays a new duel to its end. -/
theorem Duel.exists_plays_to_end (hp : Program program) (board : Board) :
    ∃ ts m, Machine.Plays invaders (Machine.new program (Duel.new board)) ts m ∧
      m.state.finished = true ∧
      ts.length ≤ Duel.horizon board.effective *
        ((Node.form program).nodeCount + (Node.form program).formCount) := by
  rw [← Duel.ticksLeft_new]
  exact (Machine.Sound.new hp _).plays_to_end invaders_lasts (Duel.new_onCourse board)

/-- A valid program plays every duel to its end, whatever the settings of the board are.

The horizon of the board is the number of its ticks, or that of the ticks in which the alien
comes down, whichever is less.  The duel is over for the first time after a number `n` of steps
that is at most the horizon times the nodes and forms of the program.  After any number `k` of
steps, the loop that plays to the end makes as many more as are missing from `n`, and stops with
the duel over.  An evaluation with a budget that large finishes the duel and is not exhausted. -/
theorem Machine.duel_ends (board : Board) (program : Form) (hp : program.validate = .ok ()) :
    let b := board.effective
    let bound := Duel.horizon b * ((Node.form program).nodeCount + (Node.form program).formCount)
    let after := (Machine.new program (Duel.new board)).afterSteps invaders
    (Duel.horizon b : Int) = min b.maxTicks.toInt (b.descendEvery.toInt * (b.height.toInt - 1)) ∧
    (∃ n ≤ bound, IsLeast {n | (after n).state.finished = true} n ∧
      ∀ k, (after (max k n)).state.finished = true ∧
        (∀ fuel, n - k ≤ fuel →
          untilFinished invaders fuel (after k) = (after (max k n), .ok ())) ∧
        (after k).runGame invaders (Duel.horizon b) =
          (after (max k n), .ok (after (max k n)).state.won)) ∧
    ∀ maxSteps : Int64, (bound : Int) ≤ maxSteps.toInt →
      ∃ r result,
        Fitness.run invaders maxSteps (fun _ _ => false) (some program) (some (Duel.new board)) =
          .ok r ∧
        r.outcome invaders = .ok result ∧ result.finished = true ∧ result.exhausted = false := by
  intro b bound after
  have hprogram : Program program := Form.validate_eq_ok_iff.mp hp
  obtain ⟨ts, final, hplays, hover, hle⟩ := Duel.exists_plays_to_end hprogram board
  refine ⟨board.effective_sensible.horizon_eq,
    ⟨ts.length, hle, hplays.isLeast hover, fun k => ?_⟩, fun maxSteps hmax => ?_⟩
  · obtain ⟨rest, hrest, hend, hlength⟩ := hplays.resume invaders_lasts hover k
    have hsame : (after k).program = program :=
      (performAll_coherent program (Duel.new board) (List.replicate k .step)).1
    refine ⟨hend, fun fuel hfuel => hrest.untilFinished_eq hend (hlength ▸ hfuel),
      hrest.runGame_eq hend ?_⟩
    show rest.length ≤ Duel.horizon b * (after k).stepBound
    rw [hlength, stepBound, hsame]
    exact Nat.le_trans (Nat.sub_le _ _) hle
  · have hbudget : ts.length ≤ Fitness.budget maxSteps :=
      Fitness.le_budget (Int.le_trans (Int.ofNat_le.mpr hle) hmax)
    refine ⟨_, _, hplays.run_eq hprogram hbudget (.inl hover), rfl, ?_⟩
    simp [Fitness.Run.report, invaders, hover]

/-- On the standard board a duel lasts at most 21 ticks.  The duelist has 11 nodes, of which 3 are
forms, so a budget of 294 steps is enough for it. -/
theorem Machine.duel_ends_of_duelist :
    Duel.horizon Board.standard.effective *
      ((Node.form duelist).nodeCount + (Node.form duelist).formCount) = 294 ∧
    ∃ r result,
      Fitness.run invaders 294 (fun _ _ => false) (some duelist)
        (some (Duel.new Board.standard)) = .ok r ∧
      r.outcome invaders = .ok result ∧ result.finished = true ∧ result.exhausted = false :=
  ⟨by decide, (Machine.duel_ends Board.standard duelist duelist_valid).2.2 294 (by decide)⟩

end Stepwise
