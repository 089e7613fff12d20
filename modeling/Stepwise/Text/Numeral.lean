/-!
# Numerals

Reading whole numbers in a given base into 64-bit words.  Digits are read from left
to right, and the first problem is the one reported: a character that is no digit of
the base, or the digit at which the value leaves the unsigned 64-bit range.  Only a
numeral that passes both tests is then held against the signed range.
-/

namespace Stepwise.Text

/-- Why a numeral cannot be read. -/
inductive NumeralError where
  /-- There is no digit, or a character is no digit of the base. -/
  | malformed
  /-- The value does not fit. -/
  | outOfRange
deriving DecidableEq, Repr

/-- The wording of a problem with a numeral. -/
def NumeralError.message : NumeralError → String
  | .malformed => "invalid syntax"
  | .outOfRange => "value out of range"

/-- The value of a digit or of a letter, which counts on from ten. -/
def digitValue? (c : Char) : Option Nat :=
  if '0' ≤ c && c ≤ '9' then some (c.toNat - '0'.toNat)
  else if 'a' ≤ c && c ≤ 'z' then some (c.toNat - 'a'.toNat + 10)
  else if 'A' ≤ c && c ≤ 'Z' then some (c.toNat - 'A'.toNat + 10)
  else none

/-- Read more digits after the value `n`. -/
def readMoreDigits (base : Nat) : Nat → List Char → Except NumeralError Nat
  | n, [] => .ok n
  | n, c :: cs =>
    match digitValue? c with
    | none => .error .malformed
    | some d =>
      if base ≤ d then .error .malformed
      else if UInt64.size ≤ n * base + d then .error .outOfRange
      else readMoreDigits base (n * base + d) cs

/-- Read an unsigned numeral, which has at least one digit. -/
def readUnsigned (base : Nat) (cs : List Char) : Except NumeralError Nat :=
  if cs.isEmpty then .error .malformed else readMoreDigits base 0 cs

/-- The signed number with a given sign and size. -/
def withSign (negative : Bool) (n : Nat) : Except NumeralError Int64 :=
  if negative then
    if n ≤ Int64.maxValue.toNatClampNeg + 1 then .ok (Int64.ofInt (-n)) else .error .outOfRange
  else
    if n ≤ Int64.maxValue.toNatClampNeg then .ok (Int64.ofNat n) else .error .outOfRange

/-- Split an optional sign off a numeral and say whether it is a minus. -/
def splitSign : List Char → Bool × List Char
  | '+' :: cs => (false, cs)
  | '-' :: cs => (true, cs)
  | cs => (false, cs)

/-- Read a decimal numeral with an optional sign. -/
def readDecimal (s : String) : Except NumeralError Int64 :=
  let (negative, digits) := splitSign s.toList
  (readUnsigned 10 digits).bind (withSign negative)

end Stepwise.Text
