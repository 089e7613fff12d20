import Stepwise.Proofs.Game.Field

/-!
# A duel gets started

The start of a duel takes two draws, for the column of the alien and for its direction.  The
second one comes to an end at once, and the first one because the source runs through all words but
zero.  A source does so from every state in which it can be, so the same holds of any draw later on.
-/

namespace Stepwise

theorem Xorshift.skip_cyclic (seed : Int64) (n : Nat) : Cyclic ((seeded seed).skip n).word := by
  rw [skip_eq]
  exact (cyclic_of_ne_zero (seeded_word_ne_zero seed)).iterate n

/-- Any draw below a positive word follows the rule. -/
theorem Xorshift.Cyclic.draws {s : Xorshift} (hs : Cyclic s.word) {n : Int64} (hn : 1 ≤ n.toInt) :
    Draws n.toInt.toNat s (s.drawBelow n.toUInt64).1.toNat (s.drawBelow n.toUInt64).2 := by
  have hlt := n.toInt_lt
  have hnat := toNat_toUInt64_of_pos hn
  rw [← hnat]
  exact hs.drawBelow_draws (by omega) (by omega)

namespace Duel

/-- The two draws for the start of a duel have come to an end, and they say where the alien is and
where it goes. -/
def Starts (b : Board) (g : Duel) : Prop :=
  ∃ column side s,
    Xorshift.Draws b.width.toInt.toNat (Xorshift.seeded b.seed) column s ∧
    Xorshift.Draws 2 s side g.source ∧
    g.alienX.toInt = column ∧ g.heading = if side = 0 then -1 else 1

theorem onBoard_starts {b : Board} (h : b.Sensible) : Starts b (onBoard b) := by
  have hseed : Xorshift.Cyclic (Xorshift.seeded b.seed).word := Xorshift.skip_cyclic b.seed 0
  have hcolumn := hseed.draws h.width
  have hside := (hcolumn.cyclic hseed).drawBelow_draws (n := 2) (by decide) (by decide)
  have hword := toInt_toInt64_of_lt (Nat.lt_trans (hcolumn.lt ?_) ?_)
  · refine ⟨_, _, _, hcolumn, hside, hword, ?_⟩
    simp only [onBoard, ← UInt64.toNat_inj]
    rfl
  · have hwidth := h.width
    omega
  · have hmax := b.width.toInt_lt
    omega

/-- Every draw of a source comes to an end, and so does the start of a duel.

The first part is about a source with any seed, after any number of draws.  The second part is
about any board, for a new duel and for one that is started again after any use. -/
theorem draws_end (seed : Int64) (drawn : Nat) {n : Int64} (hn : 1 ≤ n.toInt) (board : Board)
    (ops : List Operation) :
    (let s := (Xorshift.seeded seed).skip drawn
      ∃ v t, s.below n = .ok (v, t) ∧ Xorshift.Draws n.toInt.toNat s v.toNat t ∧
        v.toNat < n.toInt.toNat) ∧
    ∀ g ∈ [Duel.new board, ((Duel.new board).performAll ops).reset],
      Starts board.effective g ∧
      0 ≤ g.alienX.toInt ∧ g.alienX.toInt < board.effective.width.toInt := by
  constructor
  · intro s
    have hs : Xorshift.Cyclic s.word := Xorshift.skip_cyclic seed drawn
    have hdraws := hs.draws hn
    have hbelow : s.below n = .ok (s.drawBelow n.toUInt64) := by
      rw [Xorshift.below, if_neg]
      rw [Int64.le_iff_toInt_le]
      exact Int.not_le.mpr hn
    exact ⟨(s.drawBelow n.toUInt64).1, (s.drawBelow n.toUInt64).2, hbelow, hdraws,
      hdraws.lt (by omega)⟩
  · have hagain : ((Duel.new board).performAll ops).reset = Duel.new board := by
      obtain ⟨actions, hplayed⟩ := exists_played board ops
      rw [hplayed, reset, played_board]
      rfl
    intro g hg
    obtain rfl : g = Duel.new board := by simpa [hagain] using hg
    exact ⟨onBoard_starts board.effective_sensible,
      (onBoard_onField board.effective_sensible).alien⟩

/-- A bound just above half of what a draw can give, for which nearly every other draw is
rejected. -/
theorem draws_end_of_half :
    1 ≤ (0x4000000000000001 : Int64).toInt ∧
    ∃ v t, (Xorshift.seeded 0).below 0x4000000000000001 = .ok (v, t) ∧
      Xorshift.Draws 0x4000000000000001 (Xorshift.seeded 0) v.toNat t ∧
      v.toNat < 0x4000000000000001 :=
  ⟨by decide, (draws_end 0 0 (n := 0x4000000000000001) (by decide) .standard []).1⟩

end Duel

end Stepwise
