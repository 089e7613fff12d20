import Mathlib.Algebra.Group.Nat.Defs
import Mathlib.Logic.Function.Iterate
import Stepwise.Random.Xorshift

/-!
# Jumping ahead

The shuffle of a draw is linear: shifts and exclusive ors pass through an exclusive or
(`shuffle_xor`).  So a polynomial over the field of two elements can be applied to it.  A number
stands for the polynomial whose coefficients are its bits, the lowest one first, and `combine`
evaluates the `k` lowest coefficients by Horner's rule.

The word that 64 draws make of one is an exclusive or of words that fewer draws make of it.
`modulus` says of which, so it is a polynomial of degree 64 that takes one to zero.  Hence products
of polynomials can be reduced modulo `modulus`, with no change to the word that they make of one
(`spread_mul`).  The powers of the variable, by repeated squaring, then tell where `n` draws lead,
also if nobody could draw that often (`iterate_shuffle_one`).
-/

namespace Stepwise.Xorshift

open Function

/-! ## The shuffle is linear -/

theorem xor_xor_xor_comm (a b c d : UInt64) :
    (a ^^^ b) ^^^ (c ^^^ d) = (a ^^^ c) ^^^ (b ^^^ d) := by
  rw [UInt64.xor_assoc, UInt64.xor_assoc, ← UInt64.xor_assoc b, UInt64.xor_comm b c,
    UInt64.xor_assoc]

@[simp] theorem shuffle_zero : shuffle 0 = 0 := rfl

theorem xor_shiftLeft_xor (a b n : UInt64) :
    (a ^^^ b) ^^^ ((a ^^^ b) <<< n) = (a ^^^ (a <<< n)) ^^^ (b ^^^ (b <<< n)) := by
  rw [UInt64.shiftLeft_xor, xor_xor_xor_comm]

theorem xor_shiftRight_xor (a b n : UInt64) :
    (a ^^^ b) ^^^ ((a ^^^ b) >>> n) = (a ^^^ (a >>> n)) ^^^ (b ^^^ (b >>> n)) := by
  rw [UInt64.shiftRight_xor, xor_xor_xor_comm]

@[simp] theorem shuffle_xor (a b : UInt64) : shuffle (a ^^^ b) = shuffle a ^^^ shuffle b := by
  simp only [shuffle, xor_shiftLeft_xor, xor_shiftRight_xor]

theorem iterate_shuffle_zero (n : Nat) : shuffle^[n] 0 = 0 := iterate_fixed shuffle_zero n

theorem iterate_shuffle_xor (n : Nat) (a b : UInt64) :
    shuffle^[n] (a ^^^ b) = shuffle^[n] a ^^^ shuffle^[n] b := by
  induction n generalizing a b with
  | zero => rfl
  | succ n ih => rw [iterate_succ_apply, shuffle_xor, ih, iterate_succ_apply, iterate_succ_apply]

/-! ## Polynomials in a linear map -/

/-- The polynomial with the `k` lowest bits of `c` in a linear map, applied to `a`. -/
def combine {α : Type} [XorOp α] [OfNat α 0] (step : α → α) (a : α) : Nat → Nat → α
  | 0, _ => 0
  | k + 1, c => (if c % 2 = 1 then a else 0) ^^^ step (combine step a k (c / 2))

/-- A linear map that takes one step to another takes the polynomials in one to those in the
other. -/
theorem combine_map {α β : Type} [XorOp α] [OfNat α 0] [XorOp β] [OfNat β 0] {step : α → α}
    {step' : β → β} (f : α → β) (hzero : f 0 = 0) (hxor : ∀ x y, f (x ^^^ y) = f x ^^^ f y)
    (hstep : ∀ x, f (step x) = step' (f x)) (a : α) (k c : Nat) :
    f (combine step a k c) = combine step' (f a) k c := by
  induction k generalizing c with
  | zero => exact hzero
  | succ k ih =>
      rw [combine, combine, hxor, hstep, ih]
      split
      · rfl
      · rw [hzero]

theorem combine_xor (w : UInt64) (k c d : Nat) :
    combine shuffle w k (c ^^^ d) = combine shuffle w k c ^^^ combine shuffle w k d := by
  induction k generalizing c d with
  | zero => simp [combine]
  | succ k ih =>
      simp only [combine, Nat.xor_mod_two_eq_one, Nat.xor_div_two, ih, shuffle_xor]
      rw [xor_xor_xor_comm]
      congr 1
      by_cases hc : c % 2 = 1 <;> by_cases hd : d % 2 = 1 <;> simp [hc, hd]

@[simp] theorem combine_zero (w : UInt64) (k : Nat) : combine shuffle w k 0 = 0 := by
  induction k with
  | zero => rfl
  | succ k ih => simp [combine, ih]

theorem combine_two_mul (w : UInt64) (k c : Nat) :
    combine shuffle w (k + 1) (2 * c) = shuffle (combine shuffle w k c) := by
  simp [combine]

/-- The highest coefficient stands for as many draws as its number says. -/
theorem combine_succ (w : UInt64) (k c : Nat) :
    combine shuffle w (k + 1) c =
      combine shuffle w k c ^^^ if c / 2 ^ k % 2 = 1 then shuffle^[k] w else 0 := by
  induction k generalizing c with
  | zero => simp [combine]
  | succ k ih =>
      have hhigh : c / 2 / 2 ^ k = c / 2 ^ (k + 1) := by
        rw [Nat.div_div_eq_div_mul, Nat.pow_succ']
      rw [combine, ih, shuffle_xor, ← UInt64.xor_assoc, combine, hhigh, iterate_succ_apply']
      congr 1
      split
      · rfl
      · exact shuffle_zero

/-! ## Polynomials modulo the one that takes one to zero -/

/-- The polynomial of degree 64 in the shuffle that takes the word one to zero. -/
def modulus : Nat := 0x10223240da3e40dc9

/-- The product of a polynomial and the variable, of degree below 64 again. -/
def times (c : Nat) : Nat := (2 * c) ^^^ if c / 2 ^ 63 % 2 = 1 then modulus else 0

/-- The product of two polynomials of degree below 64. -/
def mul (c d : Nat) : Nat := combine times c 64 d

/-- The power of the variable with an exponent of `k` bits, by repeated squaring. -/
def power : Nat → Nat → Nat
  | 0, _ => 1
  | k + 1, n =>
    let c := power k (n / 2)
    if n % 2 = 1 then times (mul c c) else mul c c

/-- The word that a polynomial of degree below 64 in the shuffle makes of one. -/
def spread (c : Nat) : UInt64 := combine shuffle 1 64 c

theorem spread_modulus : spread modulus = shuffle^[64] 1 := by decide +kernel

@[simp] theorem spread_zero : spread 0 = 0 := combine_zero 1 64

theorem spread_xor (c d : Nat) : spread (c ^^^ d) = spread c ^^^ spread d := combine_xor 1 64 c d

theorem spread_times (c : Nat) : spread (times c) = shuffle (spread c) := by
  -- Only the 64 lowest bits count on both sides, so nothing has to be known of the size of `c`.
  have hlow : spread (2 * c) = shuffle (combine shuffle 1 63 c) := combine_two_mul 1 63 c
  have hall : spread c =
      combine shuffle 1 63 c ^^^ if c / 2 ^ 63 % 2 = 1 then shuffle^[63] 1 else 0 :=
    combine_succ 1 63 c
  rw [times, spread_xor, hlow, hall, shuffle_xor]
  congr 1
  split
  · exact spread_modulus.trans (iterate_succ_apply' shuffle 63 1)
  · exact spread_zero.trans shuffle_zero.symm

/-- A product of polynomials draws as often as both factors together. -/
theorem spread_mul {c d m n : Nat} (hc : spread c = shuffle^[m] 1) (hd : spread d = shuffle^[n] 1) :
    spread (mul c d) = shuffle^[m + n] 1 := by
  have hpast (x : UInt64) : shuffle^[m] (shuffle x) = shuffle (shuffle^[m] x) :=
    (iterate_succ_apply shuffle m x).symm.trans (iterate_succ_apply' shuffle m x)
  calc spread (mul c d)
      = combine shuffle (spread c) 64 d :=
        combine_map spread spread_zero spread_xor spread_times c 64 d
    _ = shuffle^[m] (spread d) := by
        rw [hc]
        exact (combine_map shuffle^[m] (iterate_shuffle_zero m) (iterate_shuffle_xor m) hpast
          1 64 d).symm
    _ = shuffle^[m + n] 1 := by rw [hd, iterate_add_apply]

theorem spread_power {k n : Nat} (hn : n < 2 ^ k) : spread (power k n) = shuffle^[n] 1 := by
  induction k generalizing n with
  | zero =>
      obtain rfl : n = 0 := by simpa using hn
      decide +kernel
  | succ k ih =>
      obtain ⟨m, rfl | rfl⟩ : ∃ m, n = 2 * m ∨ n = 2 * m + 1 := ⟨n / 2, by omega⟩
      · have hroot : spread (power k m) = shuffle^[m] 1 := ih (by omega)
        have hhalf : 2 * m / 2 = m := by omega
        rw [power, if_neg (by omega), hhalf, Nat.two_mul]
        exact spread_mul hroot hroot
      · have hroot : spread (power k m) = shuffle^[m] 1 := ih (by omega)
        have hhalf : (2 * m + 1) / 2 = m := by omega
        rw [power, if_pos (by omega), hhalf, Nat.two_mul, iterate_succ_apply',
          ← spread_mul hroot hroot]
        exact spread_times _

/-- Where `n` draws lead from the word one. -/
theorem iterate_shuffle_one {n : Nat} (hn : n < 2 ^ 64) : shuffle^[n] 1 = spread (power 64 n) :=
  (spread_power hn).symm

end Stepwise.Xorshift
