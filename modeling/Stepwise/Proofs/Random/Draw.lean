import Stepwise.Proofs.Random.Period

/-!
# A draw below a bound comes to an end

`Draws n` is the rule by which a number below `n` is drawn, in plain arithmetic and with no limit
on redraws: a derivation of it is a draw that has come to an end.

A source whose words run through the whole cycle comes to the word with only the top bit set, for
which the bits of a draw are all zero.  No limit is below zero, so this draw is accepted if none
was before (`exists_value_eq_zero`).  It follows that the limit on redraws in `drawBelow` is never
felt (`Cyclic.drawBelow_draws`).
-/

namespace Stepwise.Xorshift

variable {n : UInt64} {s t : Xorshift}

/-! ## The rule -/

/-- The number of bits in a draw below `n`. -/
def bits (n : Nat) : Nat := if n < 2 ^ 31 then 31 else 63

/-- The bits of a draw below `n` in the word of a source: the highest ones below the top bit. -/
def value (n : Nat) (s : Xorshift) : Nat := s.word.toNat % 2 ^ 63 / 2 ^ (63 - bits n)

/-- The greatest value that is accepted: those up to it are a multiple of `n` in number. -/
def limit (n : Nat) : Nat := 2 ^ bits n - 1 - 2 ^ bits n % n

/-- `Draws n s v t` says that a draw below `n` from the source `s` ends with the number `v` and
the source `t`. -/
inductive Draws (n : Nat) : Xorshift → Nat → Xorshift → Prop where
  | mask {s : Xorshift} : n.isPowerOfTwo → Draws n s (value n s.next &&& (n - 1)) s.next
  | accept {s : Xorshift} :
      ¬ n.isPowerOfTwo → value n s.next ≤ limit n → Draws n s (value n s.next % n) s.next
  | redraw {s t : Xorshift} {v : Nat} :
      ¬ n.isPowerOfTwo → limit n < value n s.next → Draws n s.next v t → Draws n s v t

theorem Draws.lt {n v : Nat} (hn : 0 < n) (h : Draws n s v t) : v < n := by
  induction h with
  | @mask s =>
      have hle : value n s.next &&& (n - 1) ≤ n - 1 := Nat.and_le_right
      omega
  | accept => exact Nat.mod_lt _ hn
  | redraw _ _ _ ih => exact ih

theorem Draws.cyclic {n v : Nat} (h : Draws n s v t) (hs : Cyclic s.word) : Cyclic t.word := by
  induction h with
  | mask => exact hs.iterate 1
  | accept => exact hs.iterate 1
  | redraw _ _ _ ih => exact ih (hs.iterate 1)

/-! ## Words and numbers -/

theorem toNat_pred (hn : 0 < n.toNat) : (n - 1).toNat = n.toNat - 1 :=
  UInt64.toNat_sub_of_le _ _ (UInt64.le_iff_toNat_le.mpr hn)

/-- A draw below a positive bound is below it. -/
theorem drawBelow_lt (hn : 0 < n) (s : Xorshift) : (s.drawBelow n).1 < n := by
  unfold drawBelow
  split
  · have hpos : 0 < n.toNat := UInt64.lt_iff_toNat_lt.mp hn
    rw [UInt64.lt_iff_toNat_lt, UInt64.toNat_and, toNat_pred hpos]
    have hle := Nat.and_le_right (n := (s.drawBits (drawWidth n)).1.toNat) (m := n.toNat - 1)
    omega
  · exact UInt64.mod_lt _ hn

theorem drawWidth_eq (n : UInt64) :
    drawWidth n = 31 ∧ bits n.toNat = 31 ∨ drawWidth n = 63 ∧ bits n.toNat = 63 := by
  have hle : n ≤ 0x7fffffff ↔ n.toNat < 2 ^ 31 := by
    rw [UInt64.le_iff_toNat_le]
    exact Nat.lt_succ_iff.symm
  simp only [drawWidth, bits, hle]
  split
  · exact .inl ⟨rfl, rfl⟩
  · exact .inr ⟨rfl, rfl⟩

theorem toNat_drawBits (n : UInt64) (s : Xorshift) :
    (s.drawBits (drawWidth n)).1.toNat = value n.toNat s.next := by
  have hlow : s.next.low63.toNat = s.next.word.toNat % 2 ^ 63 := by
    rw [low63, UInt64.toNat_and]
    exact Nat.and_two_pow_sub_one_eq_mod _ 63
  rw [value, drawBits, UInt64.toNat_shiftRight, hlow, Nat.shiftRight_eq_div_pow]
  obtain ⟨hwidth, hbits⟩ | ⟨hwidth, hbits⟩ := drawWidth_eq n
  · rw [hwidth, hbits]
    rfl
  · rw [hwidth, hbits]
    rfl

/-- The limit on accepted values, which does not wrap for a bound that a signed word holds. -/
theorem toNat_limit (hn : 0 < n.toNat) (hlt : n.toNat < 2 ^ 63) :
    ((1 : UInt64) <<< drawWidth n - 1 - (1 : UInt64) <<< drawWidth n % n).toNat =
      limit n.toNat := by
  obtain ⟨top, htop⟩ : ∃ top, (1 : UInt64) <<< drawWidth n = top := ⟨_, rfl⟩
  obtain ⟨hnat, hle⟩ : top.toNat = 2 ^ bits n.toNat ∧ n.toNat ≤ top.toNat := by
    subst htop
    obtain ⟨hwidth, hbits⟩ | ⟨hwidth, hbits⟩ := drawWidth_eq n
    · have hsmall : n.toNat < 2 ^ 31 := by simpa [bits] using hbits
      rw [hwidth, hbits]
      exact ⟨rfl, hsmall.le⟩
    · rw [hwidth, hbits]
      exact ⟨rfl, hlt.le⟩
  have hmod : top.toNat % n.toNat < n.toNat := Nat.mod_lt _ hn
  have hpred : (top - 1).toNat = top.toNat - 1 := toNat_pred (Nat.lt_of_lt_of_le hn hle)
  have hfits : top % n ≤ top - 1 := by
    rw [UInt64.le_iff_toNat_le, UInt64.toNat_mod, hpred]
    omega
  rw [htop, UInt64.toNat_sub_of_le _ _ hfits, hpred, UInt64.toNat_mod, hnat, limit]

theorem and_pred_eq_zero_iff (hn : 0 < n.toNat) : n &&& (n - 1) = 0 ↔ n.toNat.isPowerOfTwo := by
  rw [← Nat.and_sub_one_eq_zero_iff_isPowerOfTwo (by omega), ← UInt64.toNat_inj, UInt64.toNat_and,
    toNat_pred hn]
  rfl

/-! ## The end of a draw -/

/-- A whole cycle has a word with nothing below its top bit. -/
theorem exists_value_eq_zero (hs : Cyclic s.word) (n : Nat) :
    ∃ k ≤ period, value n (s.skip k).next = 0 := by
  have htop : (0x8000000000000000 : UInt64) ≠ 0 := by decide
  obtain ⟨k, hk, hword⟩ := (hs.iterate 1).reaches htop
  refine ⟨k, hk.le, ?_⟩
  have hdrawn : (s.skip k).next.word = 0x8000000000000000 := (next_skip_word k s).trans hword
  rw [value, hdrawn]
  exact Nat.zero_div _

theorem drawUpTo_succ (width most : UInt64) (fuel : Nat) (s : Xorshift) :
    s.drawUpTo width most (fuel + 1) =
      if most < (s.drawBits width).1 then s.next.drawUpTo width most fuel else s.drawBits width :=
  rfl

/-- Redrawing follows the rule, if a draw is accepted as long as redraws are allowed. -/
theorem drawUpTo_draws {most : UInt64} (hpower : ¬ n.toNat.isPowerOfTwo)
    (hmost : most.toNat = limit n.toNat) {fuel : Nat}
    (haccept : ∃ k ≤ fuel, value n.toNat (s.skip k).next ≤ limit n.toNat) :
    Draws n.toNat s ((s.drawUpTo (drawWidth n) most fuel).1.toNat % n.toNat)
      (s.drawUpTo (drawWidth n) most fuel).2 := by
  have hlt (s : Xorshift) : most < (s.drawBits (drawWidth n)).1 ↔
      limit n.toNat < value n.toNat s.next := by
    rw [UInt64.lt_iff_toNat_lt, toNat_drawBits, hmost]
  induction fuel generalizing s with
  | zero =>
      obtain ⟨k, hk, hle⟩ := haccept
      obtain rfl : k = 0 := by omega
      rw [drawUpTo, toNat_drawBits]
      exact .accept hpower hle
  | succ fuel ih =>
      by_cases hredraw : limit n.toNat < value n.toNat s.next
      · obtain ⟨k, hk, hle⟩ := haccept
        cases k with
        | zero => exact absurd hle (Nat.not_le.mpr hredraw)
        | succ k =>
            rw [drawUpTo_succ, if_pos ((hlt s).mpr hredraw)]
            exact .redraw hpower hredraw (ih ⟨k, by omega, hle⟩)
      · rw [drawUpTo_succ, if_neg fun h => hredraw ((hlt s).mp h), toNat_drawBits]
        exact .accept hpower (Nat.not_lt.mp hredraw)

/-- A draw below a bound that a signed word holds follows the rule. -/
theorem Cyclic.drawBelow_draws (hs : Cyclic s.word) (hn : 0 < n.toNat) (hlt : n.toNat < 2 ^ 63) :
    Draws n.toNat s (s.drawBelow n).1.toNat (s.drawBelow n).2 := by
  by_cases hpower : n.toNat.isPowerOfTwo
  · rw [drawBelow, if_pos ((and_pred_eq_zero_iff hn).mpr hpower), UInt64.toNat_and,
      toNat_pred hn, toNat_drawBits]
    exact .mask hpower
  · obtain ⟨k, hk, hzero⟩ := exists_value_eq_zero hs n.toNat
    rw [drawBelow, if_neg fun h => hpower ((and_pred_eq_zero_iff hn).mp h), UInt64.toNat_mod]
    exact drawUpTo_draws hpower (toNat_limit hn hlt) ⟨k, hk, hzero ▸ Nat.zero_le _⟩

end Stepwise.Xorshift
