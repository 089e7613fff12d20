/-!
# Decimal fractions

A number with a point or an exponent stands for the nearest binary floating point
number with a significand of 53 bits, ties going to the even significand.  Here it
is only needed where a whole number is expected, so what is computed is its whole
part.  Rounding comes first: a fraction that is close enough below a whole number
counts as that number.  A number that rounds to `2 ^ 1024` or beyond is not
representable.

All arithmetic is exact.  Exponents far outside the representable range are decided
without computing the power.
-/

namespace Stepwise.Text

/-- The quotient rounded to the nearest whole number, ties to even. -/
def roundQuotient (num den : Nat) : Nat :=
  let q := num / den
  let r := num % den
  if 2 * r < den then q else if den < 2 * r then q + 1 else q + q % 2

/-- The quotient `num / den` over `2 ^ e`, as a pair. -/
def scaleDown (num den : Nat) (e : Int) : Nat × Nat :=
  if 0 ≤ e then (num, den <<< e.toNat) else (num <<< (-e).toNat, den)

/-- The whole part of the floating point number nearest to `num / den`, for positive
`num` and `den`.  Nothing if it is not representable. -/
def nearestWhole? (num den : Nat) : Option Nat :=
  let guess : Int := (num.log2 : Int) - (den.log2 : Int) - 52
  let (n, d) := scaleDown num den guess
  let e := if n < d <<< 52 then guess - 1 else guess
  let (n, d) := scaleDown num den e
  let significand := roundQuotient n d
  if 0 ≤ e then
    let whole := significand <<< e.toNat
    if 1 <<< 1024 ≤ whole then none else some whole
  else some (significand >>> (-e).toNat)

/-- A decimal number: a sign, digits and a power of ten. -/
structure Decimal where
  /-- Is there a minus sign? -/
  negative : Bool
  /-- The digits, read as a whole number. -/
  digits : Nat
  /-- The number of digits written. -/
  length : Nat
  /-- The power of ten that the digits are multiplied by. -/
  exponent : Int
deriving DecidableEq, Repr

/-- The whole part of the floating point number nearest to a decimal number. -/
def Decimal.whole? (d : Decimal) : Option Int :=
  let size? : Option Nat :=
    if d.digits = 0 then some 0
    else if 400 < d.exponent then none
    else if d.exponent + d.length < -400 then some 0
    else if 0 ≤ d.exponent then nearestWhole? (d.digits * Nat.pow 10 d.exponent.toNat) 1
    else nearestWhole? d.digits (Nat.pow 10 (-d.exponent).toNat)
  size?.map fun n => if d.negative then -(n : Int) else n

/-- The number that a list of digits stands for. -/
def digitsValue (cs : List Char) : Nat := cs.foldl (fun n c => n * 10 + (c.toNat - '0'.toNat)) 0

/-- Read the exponent of a decimal number, if the rest of the text is one. -/
def readExponent? : List Char → Option Int
  | [] => some 0
  | c :: cs =>
    if c = 'e' || c = 'E' then
      let (negative, digits) := match cs with
        | '+' :: ds => (false, ds)
        | '-' :: ds => (true, ds)
        | ds => (false, ds)
      if digits.isEmpty || !digits.all Char.isDigit then none
      else some (if negative then -(digitsValue digits : Int) else digitsValue digits)
    else none

/-- Read a decimal number without its sign: digits with an optional point, of which
at least one stands in front of the point or one after it, and an optional
exponent. -/
def readUnsignedDecimal? (negative : Bool) (cs : List Char) : Option Decimal :=
  let front := cs.takeWhile Char.isDigit
  let rest := cs.dropWhile Char.isDigit
  let (back, rest) := match rest with
    | '.' :: r => (r.takeWhile Char.isDigit, r.dropWhile Char.isDigit)
    | r => ([], r)
  if front.isEmpty && back.isEmpty then none
  else (readExponent? rest).map fun e =>
    let digits := front ++ back
    ⟨negative, digitsValue digits, digits.length, e - back.length⟩

/-- Read a decimal number with an optional sign. -/
def readDecimalFraction? : List Char → Option Decimal
  | '+' :: cs => readUnsignedDecimal? false cs
  | '-' :: cs => readUnsignedDecimal? true cs
  | cs => readUnsignedDecimal? false cs

example : (readDecimalFraction? "-2.5".toList).bind Decimal.whole? = some (-2) := by decide +kernel
example : (readDecimalFraction? "1e3".toList).bind Decimal.whole? = some 1000 := by decide +kernel
example : (readDecimalFraction? "9007199254740993.0".toList).bind Decimal.whole?
    = some 9007199254740992 := by decide +kernel

end Stepwise.Text
