/-!
# A xorshift generator

The random source of the game is a 64-bit word that is shuffled by three shifts,
by 21 to the left, 35 to the right and 4 to the left, each followed by an
exclusive or.  The word zero is a fixed point of the shuffle, so a source seeded
with zero starts from the word with only the top bit set.

`drawBelow` draws a number below a bound without bias.  It takes the upper 31 bits
of a 63-bit draw for a bound below `2 ^ 31` and all 63 bits for a larger one.
A bound that is a power of two keeps the low bits.  Any other bound draws again
while the draw falls into the incomplete last stretch of multiples of the bound.
The shuffle runs through the nonzero words in one cycle of length `2 ^ 64 - 1`, so
that many draws meet every word and the limit on redraws is never felt.
-/

namespace Stepwise

/-- A random source: the word that the last draw gave, or the seed. -/
structure Xorshift where
  /-- The current word. -/
  word : UInt64
deriving DecidableEq, Repr

namespace Xorshift

/-- The shuffle of one draw. -/
def shuffle (w : UInt64) : UInt64 :=
  let w := w ^^^ (w <<< 21)
  let w := w ^^^ (w >>> 35)
  w ^^^ (w <<< 4)

/-- A source with a given seed. -/
def seeded (seed : Int64) : Xorshift :=
  ⟨if seed = 0 then 0x8000000000000000 else seed.toUInt64⟩

/-- The source after one draw.  Its word is the value drawn. -/
def next (s : Xorshift) : Xorshift := ⟨shuffle s.word⟩

/-- The low 63 bits of the word, as a number that is not negative. -/
def low63 (s : Xorshift) : UInt64 := s.word &&& 0x7fffffffffffffff

/-- The source after `n` draws. -/
def skip : Nat → Xorshift → Xorshift
  | 0, s => s
  | n + 1, s => skip n s.next

/-- The width of a draw below `n`: 31 bits for a bound below `2 ^ 31`, else 63. -/
def drawWidth (n : UInt64) : UInt64 := if n ≤ 0x7fffffff then 31 else 63

/-- Draw `width` bits: the highest of the low 63 bits of the next word. -/
def drawBits (width : UInt64) (s : Xorshift) : UInt64 × Xorshift :=
  let s := s.next
  (s.low63 >>> (63 - width), s)

/-- Draw `width` bits until the value is at most `limit`, at most `fuel + 1` times. -/
def drawUpTo (width limit : UInt64) : Nat → Xorshift → UInt64 × Xorshift
  | 0, s => drawBits width s
  | fuel + 1, s =>
    let (v, s) := drawBits width s
    if limit < v then drawUpTo width limit fuel s else (v, s)

/-- The number of words a source can pass through. -/
def period : Nat := UInt64.size - 1

/-- Draw a number below `n`, for a positive `n`. -/
def drawBelow (n : UInt64) (s : Xorshift) : UInt64 × Xorshift :=
  let width := drawWidth n
  if n &&& (n - 1) = 0 then
    let (v, s) := drawBits width s
    (v &&& (n - 1), s)
  else
    let top := (1 : UInt64) <<< width
    let (v, s) := drawUpTo width (top - 1 - top % n) period s
    (v % n, s)

/-- The wording for a bound that is not positive. -/
def badBound : String := "invalid argument to Intn"

/-- Draw a number below a signed bound.  A bound that is not positive is refused and
nothing is drawn. -/
def below (n : Int64) (s : Xorshift) : Except String (UInt64 × Xorshift) :=
  if n ≤ 0 then .error badBound else .ok (drawBelow n.toUInt64 s)

example : (seeded 1).next.word = 35651601 := by decide
example : (seeded 0).next.word = 9223372041418178560 := by decide

end Xorshift

end Stepwise
