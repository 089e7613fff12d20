import Stepwise.Text.Base64
import Stepwise.Text.Binary64
import Stepwise.Text.Numeral
import Stepwise.Yaml.Scalar

/-!
# What a scalar means

A quoted scalar is a text.  A plain one may also be nothing, a truth value, a number
or a date, by its spelling.

* Nothing is an empty scalar, a tilde or `null`.
* A whole number may have a sign, underscores between digits, and a base: `0x`, `0o`,
  `0b`, or a leading zero for octal.  It must fit into 64 bits, signed or unsigned.
* A fraction has a point or an exponent, or is too long for a whole number.  If it
  starts with the point, its underscores must stand between two digits each.
  Infinity and the number that is none have names that start with a point.
* A date has four digits for the year, and may be followed by a time.

A tag that is given decides.  With one of the tags above, quotes do not matter, and it
is a fault if the spelling means something else, except that a whole number may be
tagged as a fraction.  A tag for binary data makes the text they stand for.  Any other
tag makes the text itself.

Two angles alone are the key under which other mappings are merged.
-/

namespace Stepwise.Yaml

/-- What a scalar means. -/
inductive Meaning where
  /-- Nothing. -/
  | null
  /-- A truth value. -/
  | bool
  /-- A whole number. -/
  | int (n : Int)
  /-- A fraction, of which only the whole part is kept. -/
  | float (whole : Int)
  /-- Infinity. -/
  | infinity (negative : Bool)
  /-- The number that is none. -/
  | nan
  /-- A date. -/
  | timestamp
  /-- A text. -/
  | text (s : String)
deriving DecidableEq, Repr

/-- The tag that names a kind of meaning. -/
def Meaning.tag : Meaning → String
  | .null => "!!null"
  | .bool => "!!bool"
  | .int _ => "!!int"
  | .float _ | .infinity _ | .nan => "!!float"
  | .timestamp => "!!timestamp"
  | .text _ => "!!str"

/-! ## Fixed spellings -/

/-- The meaning of a plain scalar with a fixed spelling. -/
def fixedMeaning? (s : String) : Option Meaning :=
  if ["", "~", "null", "Null", "NULL"].contains s then some .null
  else if ["true", "True", "TRUE", "false", "False", "FALSE"].contains s then some .bool
  else if [".nan", ".NaN", ".NAN"].contains s then some .nan
  else if [".inf", ".Inf", ".INF", "+.inf", "+.Inf", "+.INF"].contains s then
    some (.infinity false)
  else if ["-.inf", "-.Inf", "-.INF"].contains s then some (.infinity true)
  else none

/-! ## Whole numbers -/

/-- The base of a numeral without its sign, and its digits. -/
def splitBase : List Char → Nat × List Char
  | '0' :: c :: cs =>
    if c = 'x' || c = 'X' then (16, cs)
    else if c = 'o' || c = 'O' then (8, cs)
    else if c = 'b' || c = 'B' then (2, cs)
    else (8, c :: cs)
  | cs => (10, cs)

/-- A whole number in a given base with an optional sign. -/
def signedIn (base : Nat) (cs : List Char) : Option Int :=
  let (negative, digits) := Text.splitSign cs
  match (Text.readUnsigned base digits).bind (Text.withSign negative) with
  | .ok n => some n.toInt
  | .error _ => none

/-- A whole number that tells its base and fits into 64 bits. -/
def wholeNumber? (cs : List Char) : Option Int :=
  let (negative, digits) := Text.splitSign cs
  let (base, digits) := splitBase digits
  match Text.readUnsigned base digits with
  | .error _ => none
  | .ok n =>
    match Text.withSign negative n with
    | .ok n => some n.toInt
    | .error _ => if cs.head? = some '+' || negative then none else some n

/-- A whole number with the sign behind the base, as in `0b-101`. -/
def signedBehindBase? : List Char → Option Int
  | '0' :: 'b' :: cs => signedIn 2 cs
  | '0' :: 'o' :: cs => signedIn 8 cs
  | '-' :: '0' :: 'b' :: cs => signedIn 2 ('-' :: cs)
  | '-' :: '0' :: 'o' :: cs => signedIn 8 ('-' :: cs)
  | _ => none

/-- A fraction that is representable. -/
def fraction? (cs : List Char) : Option Meaning :=
  ((Text.readDecimalFraction? cs).bind Text.Decimal.whole?).map .float

/-- Does every underscore stand between two digits?  `digitBefore` says whether a digit
comes before the text. -/
def dividesDigits : Bool → List Char → Bool
  | _, [] => true
  | digitBefore, c :: cs =>
    if c = '_' then digitBefore && cs.head?.any Char.isDigit && dividesDigits false cs
    else dividesDigits c.isDigit cs

/-- A fraction that starts with its point. -/
def pointFraction? (cs : List Char) : Option Meaning :=
  if dividesDigits false cs then fraction? (cs.filter (· ≠ '_')) else none

/-! ## Dates -/

/-- One or two digits at the front, and the text after them. -/
def shortNumber? : List Char → Option (Nat × List Char)
  | c :: d :: cs =>
    if !c.isDigit then none
    else if d.isDigit then some (Text.digitsValue [c, d], cs)
    else some (Text.digitsValue [c], d :: cs)
  | [c] => if c.isDigit then some (Text.digitsValue [c], []) else none
  | [] => none

/-- The text after a given character at the front. -/
def expect? (c : Char) : List Char → Option (List Char)
  | d :: cs => if c = d then some cs else none
  | [] => none

/-- The number of days of a month. -/
def daysIn (year month : Nat) : Nat :=
  if month = 2 then
    if year % 4 = 0 && (year % 100 ≠ 0 || year % 400 = 0) then 29 else 28
  else if [4, 6, 9, 11].contains month then 30
  else 31

/-- The text after a date at the front. -/
def date? (cs : List Char) : Option (List Char) := do
  let digits := cs.takeWhile Char.isDigit
  guard (digits.length = 4)
  let year := Text.digitsValue digits
  let (month, rest) ← shortNumber? (← expect? '-' (cs.drop 4))
  guard (1 ≤ month && month ≤ 12)
  let (day, rest) ← shortNumber? (← expect? '-' rest)
  guard (1 ≤ day && day ≤ daysIn year month)
  some rest

/-- The text after the fraction of a second, which may be left out. -/
def secondFraction (cs : List Char) : List Char :=
  match cs with
  | c :: d :: rest =>
    if (c = '.' || c = ',') && d.isDigit then rest.dropWhile Char.isDigit else cs
  | _ => cs

/-- The text after a time at the front. -/
def time? (cs : List Char) : Option (List Char) := do
  let (hour, rest) ← shortNumber? cs
  guard (hour < 24)
  let (minute, rest) ← shortNumber? (← expect? ':' rest)
  guard (minute < 60)
  let (second, rest) ← shortNumber? (← expect? ':' rest)
  guard (second < 60)
  some (secondFraction rest)

/-- The text after a time zone at the front. -/
def zone? : List Char → Option (List Char)
  | 'Z' :: rest => some rest
  | sign :: a :: b :: ':' :: c :: d :: rest => do
    guard (sign = '+' || sign = '-')
    guard ([a, b, c, d].all Char.isDigit)
    guard (Text.digitsValue [a, b] ≤ 24 && Text.digitsValue [c, d] ≤ 60)
    some rest
  | _ => none

/-- Is this a date, alone, with a time and a zone behind a letter T, or with a time
without a zone behind blanks? -/
def isTimestamp (cs : List Char) : Bool :=
  match date? cs with
  | none => false
  | some [] => true
  | some (c :: rest) =>
    if c = 'T' || c = 't' then ((time? rest).bind zone?) = some []
    else if c = ' ' then time? (rest.dropWhile (· = ' ')) = some []
    else false

/-! ## All together -/

/-- The meaning of a spelling that starts like a number.  `dated` says whether it may be a
date. -/
def numeric (dated : Bool) (s : String) : Meaning :=
  let cs := s.toList
  if dated && isTimestamp cs then .timestamp
  else
    let digits := cs.filter (· ≠ '_')
    match wholeNumber? digits with
    | some n => .int n
    | none =>
      match fraction? digits with
      | some m => m
      | none =>
        match signedBehindBase? digits with
        | some n => .int n
        | none => .text s

/-- The meaning of a spelling. -/
def spelled (dated : Bool) (s : String) : Meaning :=
  match fixedMeaning? s with
  | some m => m
  | none =>
    match s.toList with
    | c :: cs =>
      if c.isDigit || c = '+' || c = '-' then numeric dated s
      else if c = '.' then (pointFraction? (c :: cs)).getD (.text s)
      else .text s
    | [] => .null

/-- The fraction nearest to a whole number that fits into 64 bits with its sign. -/
def asFraction? (n : Int) : Option Meaning :=
  if Int64.minValue.toInt ≤ n && n ≤ Int64.maxValue.toInt then
    ((⟨n < 0, n.natAbs, 0, 0⟩ : Text.Decimal).whole?).map .float
  else none

namespace Scalar

/-- The key under which mappings are merged. -/
def mergeKey : String := "<<"

/-- The tags that a spelling is held against. -/
def spelledTags : List String := ["!!bool", "!!int", "!!float", "!!null", "!!timestamp"]

/-- The meaning of a scalar with a tag that a spelling is held against. -/
def taggedMeaning (tag : String) (s : Scalar) : Except Fault Meaning :=
  let m := spelled (tag = "!!timestamp") s.text
  if m.tag = tag then .ok m
  else
    let fraction? := match m with
      | .int n => if tag = "!!float" then asFraction? n else none
      | _ => none
    match fraction? with
    | some m => .ok m
    | none => .error (.tag m.tag s.text tag)

/-- The meaning of a scalar, with the tag given to it, if any. -/
def meaning (tag? : Option String) (s : Scalar) : Except Fault Meaning :=
  match tag? with
  | none => .ok (if s.plain then spelled true s.text else .text s.text)
  | some tag =>
    if spelledTags.contains tag then s.taggedMeaning tag
    else if tag = "!!binary" then
      match Text.readBase64? s.text with
      | some text => .ok (.text text)
      | none => .error .binary
    else .ok (.text s.text)

/-- The tag of a scalar. -/
def tag (tag? : Option String) (s : Scalar) : String :=
  match tag? with
  | some tag => tag
  | none =>
    if !s.plain then "!!str"
    else if s.text = mergeKey then "!!merge"
    else (spelled true s.text).tag

/-- Are mappings merged under this key? -/
def isMergeKey (tag? : Option String) (s : Scalar) : Bool :=
  s.text = mergeKey && s.tag tag? = "!!merge"

end Scalar

end Stepwise.Yaml
