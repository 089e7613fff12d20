import Mathlib.Data.List.Prime
import Mathlib.Data.Nat.Prime.Basic
import Mathlib.Dynamics.PeriodicPts.Defs
import Mathlib.Order.Interval.Finset.Nat
import Mathlib.Tactic.NormNum.Prime
import Stepwise.Proofs.Random.Jump

/-!
# The draws run through all words but zero

The word one comes back after `period` draws, and not after `period / q` draws for any prime `q`
that divides `period`, so its least period is `period` (`cyclic_one`).  Where so many draws lead is
found by a jump.

A word with this least period meets `period` words before it comes back, none of them zero, and
there are no more (`Cyclic.reaches`).  So the word one meets every word but zero, all of these
lie on one cycle (`cyclic_of_ne_zero`), and it does not matter with which of them a source starts.
-/

namespace Stepwise.Xorshift

open Function

variable {v w : UInt64}

/-! ## The least period of one word -/

/-- A period is the least one if none of its quotients by a prime is a period. -/
theorem minimalPeriod_eq_of_prime {α : Type} {f : α → α} {x : α} {n : Nat}
    (hn : IsPeriodicPt f n x) (hprime : ∀ q, q.Prime → q ∣ n → ¬ IsPeriodicPt f (n / q) x) :
    minimalPeriod f x = n := by
  obtain ⟨m, hm⟩ := hn.minimalPeriod_dvd
  by_contra hne
  have hmne : m ≠ 1 := by
    rintro rfl
    exact hne (by rw [hm, Nat.mul_one])
  obtain ⟨q, hq, r, rfl⟩ := Nat.exists_prime_and_dvd hmne
  have hswap : n = q * (minimalPeriod f x * r) := by rw [hm, Nat.mul_left_comm]
  have hquotient : n / q = minimalPeriod f x * r := Nat.div_eq_of_eq_mul_right hq.pos hswap
  refine hprime q hq (Dvd.intro _ hswap.symm) ?_
  rw [hquotient]
  exact (isPeriodicPt_minimalPeriod f x).mul_const r

/-- The primes that divide the period. -/
def factors : List Nat := [3, 5, 17, 257, 641, 65537, 6700417]

theorem prod_factors : factors.prod = period := by decide +kernel

theorem prime_of_mem_factors {q : Nat} (h : q ∈ factors) : q.Prime := by
  simp only [factors, List.mem_cons, List.not_mem_nil, or_false] at h
  rcases h with rfl | rfl | rfl | rfl | rfl | rfl | rfl <;> norm_num

theorem mem_factors_of_dvd {q : Nat} (hq : q.Prime) (h : q ∣ period) : q ∈ factors := by
  rw [← prod_factors] at h
  obtain ⟨p, hp, hdvd⟩ := (Prime.dvd_prod_iff hq.prime).mp h
  rwa [(Nat.prime_dvd_prime_iff_eq hq (prime_of_mem_factors hp)).mp hdvd]

theorem iterate_period_one : shuffle^[period] 1 = 1 := by
  rw [iterate_shuffle_one (by decide)]
  decide +kernel

theorem spread_quotient_ne_one : ∀ q ∈ factors, spread (power 64 (period / q)) ≠ 1 := by
  decide +kernel

/-- The draws that start at the word run through as many words as there are, zero apart. -/
def Cyclic (w : UInt64) : Prop := minimalPeriod shuffle w = period

theorem cyclic_one : Cyclic 1 := by
  refine minimalPeriod_eq_of_prime iterate_period_one fun q hq hdvd hback => ?_
  have hlt : period / q < 2 ^ 64 := Nat.lt_of_le_of_lt (Nat.div_le_self _ _) (by decide)
  rw [IsPeriodicPt, IsFixedPt, iterate_shuffle_one hlt] at hback
  exact spread_quotient_ne_one q (mem_factors_of_dvd hq hdvd) hback

/-! ## One cycle -/

namespace Cyclic

theorem iterate (h : Cyclic w) (n : Nat) : Cyclic (shuffle^[n] w) := by
  have hw : w ∈ periodicPts shuffle := minimalPeriod_pos_iff_mem_periodicPts.mp (h ▸ by decide)
  exact (minimalPeriod_apply_iterate hw n).trans h

theorem ne_zero (h : Cyclic w) : w ≠ 0 := by
  rintro rfl
  -- The word zero is back after one draw.
  have hone : minimalPeriod shuffle 0 = 1 := minimalPeriod_eq_one_iff_isFixedPt.mpr shuffle_zero
  exact absurd (hone.symm.trans h) (by decide)

theorem iterate_period (h : Cyclic w) : shuffle^[period] w = w := by
  rw [← h]
  exact iterate_minimalPeriod

theorem iterate_inj (h : Cyclic w) {m n : Nat} (hm : m < period) (hn : n < period)
    (heq : shuffle^[m] w = shuffle^[n] w) : m = n := by
  rw [← h] at hm hn
  exact (iterate_eq_iterate_iff_of_lt_minimalPeriod hm hn).mp heq

/-- A cycle of that length leaves no word out but zero. -/
theorem reaches (h : Cyclic w) (hv : v ≠ 0) : ∃ n < period, shuffle^[n] w = v := by
  -- As many different numbers between one and `period` as there are, so all of them.
  have hbounds {u : UInt64} (hu : u ≠ 0) : u.toNat ∈ Finset.Icc 1 period := by
    have hpos : u.toNat ≠ 0 := fun hzero => hu (UInt64.toNat_inj.mp hzero)
    have hlt := u.toNat_lt_size
    rw [Finset.mem_Icc, period]
    omega
  have hmaps : Set.MapsTo (fun n => (shuffle^[n] w).toNat) (Finset.range period)
      (Finset.Icc 1 period) := fun n _ => hbounds (h.iterate n).ne_zero
  have hinj : Set.InjOn (fun n => (shuffle^[n] w).toNat) (Finset.range period) := by
    intro m hm n hn heq
    exact h.iterate_inj (Finset.mem_range.mp hm) (Finset.mem_range.mp hn) (UInt64.toNat_inj.mp heq)
  have hcard : (Finset.Icc 1 period).card ≤ (Finset.range period).card := by
    rw [Nat.card_Icc, Finset.card_range, Nat.add_sub_cancel]
  obtain ⟨n, hn, heq⟩ := Finset.surjOn_of_injOn_of_card_le _ hmaps hinj hcard (hbounds hv)
  exact ⟨n, Finset.mem_range.mp hn, UInt64.toNat_inj.mp heq⟩

end Cyclic

theorem cyclic_of_ne_zero (hw : w ≠ 0) : Cyclic w := by
  obtain ⟨n, -, rfl⟩ := cyclic_one.reaches hw
  exact cyclic_one.iterate n

/-! ## Sources -/

theorem skip_eq (n : Nat) (s : Xorshift) : s.skip n = ⟨shuffle^[n] s.word⟩ := by
  induction n generalizing s with
  | zero => rfl
  | succ n ih => exact ih s.next

theorem next_skip_word (n : Nat) (s : Xorshift) :
    (s.skip n).next.word = shuffle^[n] (shuffle s.word) := by
  rw [skip_eq]
  exact (iterate_succ_apply' shuffle n s.word).symm

theorem seeded_word_ne_zero (seed : Int64) : (seeded seed).word ≠ 0 := by
  unfold seeded
  split
  case isTrue => decide
  case isFalse hseed =>
    intro hzero
    exact hseed (congrArg UInt64.toInt64 hzero)

/-- Whatever the seed is, a source never draws zero, it is back where it was after `2 ^ 64 - 1`
draws and not before, and any `2 ^ 64 - 1` draws in a row give every other word exactly once. -/
theorem period_of_seeded (seed : Int64) :
    (∀ n, ((seeded seed).skip n).next.word ≠ 0) ∧
    (seeded seed).skip (2 ^ 64 - 1) = seeded seed ∧
    (∀ n, 0 < n → n < 2 ^ 64 - 1 → (seeded seed).skip n ≠ seeded seed) ∧
    ∀ before w, w ≠ 0 →
      ∃! n, n < 2 ^ 64 - 1 ∧ ((seeded seed).skip (before + n)).next.word = w := by
  generalize hstart : seeded seed = s
  have hs : Cyclic s.word := cyclic_of_ne_zero (hstart ▸ seeded_word_ne_zero seed)
  refine ⟨fun n => ?_, ?_, fun n hpos hlt hback => ?_, fun before w hw => ?_⟩
  · rw [next_skip_word]
    exact (hs.iterate (n + 1)).ne_zero
  · rw [skip_eq]
    exact congrArg mk hs.iterate_period
  · rw [skip_eq] at hback
    have hzero : n = 0 := hs.iterate_inj hlt (by decide) (congrArg word hback)
    omega
  · have hfrom : Cyclic (shuffle^[before + 1] s.word) := hs.iterate _
    have hshift (n : Nat) : (s.skip (before + n)).next.word =
        shuffle^[n] (shuffle^[before + 1] s.word) := by
      rw [next_skip_word, Nat.add_comm, iterate_add_apply, iterate_succ_apply]
    simp only [hshift]
    obtain ⟨n, hn, hreached⟩ := hfrom.reaches hw
    refine ⟨n, ⟨hn, hreached⟩, ?_⟩
    rintro m ⟨hm, hreached'⟩
    exact hfrom.iterate_inj hm hn (hreached'.trans hreached.symm)

end Stepwise.Xorshift
