import Stepwise.Text.Numeral
import Stepwise.Yaml.Source

/-!
# Scalars

A scalar is a piece of text, either *plain* or between single or double quotes.  It
may go on over several lines, which are folded: one line end reads as a blank, and
of several the first is dropped.  Blanks around a line end are dropped too.

A plain scalar ends before a colon and a gap, before a comment, before a document
marker, and in a flow collection before the characters that belong to the
collection.  In a block it also ends before a line that is indented too little.
A double-quoted scalar has escapes, and a single-quoted one writes a quote twice.

Both kinds are read as words with gaps between them.
-/

namespace Stepwise.Yaml

open Scan (need look skip skipBreak line column fail)

/-- The white space since the last character of a scalar that counts. -/
inductive Gap where
  /-- Blanks within a line, the last one first. -/
  | inline (blanks : List Char)
  /-- A line end, which may be escaped away, and further line ends, the last one
  first. -/
  | folded (first : Option Char) (more : List Char)

namespace Gap

/-- No white space. -/
def none : Gap := .inline []

/-- Add a blank.  Blanks at the front of a line do not count. -/
def blank (c : Char) : Gap → Gap
  | .inline blanks => .inline (c :: blanks)
  | g => g

/-- Add a line end.  Blanks in front of the first do not count. -/
def lineEnd (c : Char) : Gap → Gap
  | .inline _ => .folded (some c) []
  | .folded first more => .folded first (c :: more)

/-- Does the gap reach over a line end? -/
def isFolded : Gap → Bool
  | .inline _ => false
  | .folded .. => true

/-- What the gap reads as, the last character first. -/
def text : Gap → List Char
  | .inline blanks => blanks
  | .folded (some '\n') [] => [' ']
  | .folded (some '\n') more => more
  | .folded first more => more ++ first.toList

/-- Read on in a gap.  In a further line, tabs in front of the column `margin` are
refused.  The scalar began in the line `start`. -/
def scan (start margin : Nat) : Nat → Gap → Scan Gap
  | 0, gap => pure gap
  | fuel + 1, gap => do
    need 1
    let c ← look 0
    if isBlank c then
      if gap.isFolded && (← column) < margin && c = '\t' then fail start .tab
      else
        skip
        scan start margin fuel (gap.blank c)
    else if isBreak c then
      skipBreak
      scan start margin fuel (gap.lineEnd (breakChar c))
    else pure gap

end Gap

/-- A scalar that has been read. -/
structure Scalar where
  /-- The text. -/
  text : String
  /-- Was it written without quotes? -/
  plain : Bool
deriving DecidableEq, Repr

/-! ## Plain scalars -/

/-- Does a plain scalar end at the character `c` in front of `d`? -/
def plainEnds (inFlow : Bool) (c d : Char) : Bool :=
  (c = ':' && isGap d) ||
  (inFlow && (c = ',' || c = '?' || c = '[' || c = ']' || c = '\x7b' || c = '\x7d'))

/-- Read a word of a plain scalar behind a gap.  The text is put in front of `acc`, the last
character first.  If there is no word, the gap stays. -/
def plainWord (inFlow : Bool) : Nat → Gap → List Char → Scan (Gap × List Char)
  | 0, gap, acc => pure (gap, acc)
  | fuel + 1, gap, acc => do
    let c ← look 0
    if isGap c || plainEnds inFlow c (← look 1) then pure (gap, acc)
    else
      skip
      need 2
      plainWord inFlow fuel .none (c :: (gap.text ++ acc))

/-- Read on in a plain scalar that began in the line `start`.  `margin` is the least column
of its further lines, and `acc` is its text so far, the last character first.  The answer
has the gap behind the scalar too. -/
def plainOn (inFlow : Bool) (start margin : Nat) :
    Nat → Gap → List Char → Scan (Gap × List Char)
  | 0, gap, acc => pure (gap, acc)
  | fuel + 1, gap, acc => do
    need 4
    if (← get).atAnyMarker || (← look 0) = '#' then pure (gap, acc)
    else
      let bound := (← get).bound
      let (gap, acc) ← plainWord inFlow bound gap acc
      let c ← look 0
      if isBlank c || isBreak c then
        let gap ← gap.scan start margin bound
        if !inFlow && (← column) < margin then pure (gap, acc)
        else plainOn inFlow start margin fuel gap acc
      else pure (gap, acc)

/-- Read a plain scalar.  The answer also says whether the gap behind it reaches over a
line end. -/
def plainScalar (inFlow : Bool) (margin : Nat) : Scan (Scalar × Bool) := do
  let (gap, acc) ← plainOn inFlow (← line) margin (← get).bound .none []
  return (⟨String.ofList acc.reverse, true⟩, gap.isFolded)

/-! ## Quoted scalars -/

/-- The character that a one-letter escape stands for. -/
def escapeLetter? : Char → Option Char
  | '0' => some (Char.ofNat 0x00)
  | 'a' => some (Char.ofNat 0x07)
  | 'b' => some (Char.ofNat 0x08)
  | 't' => some '\t'
  | '\t' => some '\t'
  | 'n' => some '\n'
  | 'v' => some (Char.ofNat 0x0B)
  | 'f' => some (Char.ofNat 0x0C)
  | 'r' => some '\r'
  | 'e' => some (Char.ofNat 0x1B)
  | ' ' => some ' '
  | '"' => some '"'
  | '\'' => some '\''
  | '\\' => some '\\'
  | 'N' => some (Char.ofNat 0x85)
  | '_' => some (Char.ofNat 0xA0)
  | 'L' => some (Char.ofNat 0x2028)
  | 'P' => some (Char.ofNat 0x2029)
  | _ => none

/-- The number of hexadecimal digits after an escape letter. -/
def escapeWidth? : Char → Option Nat
  | 'x' => some 2
  | 'u' => some 4
  | 'U' => some 8
  | _ => none

/-- The value of hexadecimal digits. -/
def hexValue? (cs : List Char) : Option Nat :=
  cs.foldl (fun n? c => n?.bind fun n => (Text.digitValue? c).bind fun d =>
    if d < 16 then some (n * 16 + d) else none) (some 0)

/-- The character with a given code, if there is one. -/
def charOfCode? (n : Nat) : Option Char :=
  if n.isValidChar then some (Char.ofNat n) else none

/-- Go on by `n` characters of the same line. -/
def skipMany : Nat → Scan Unit
  | 0 => pure ()
  | n + 1 => do
    skip
    skipMany n

/-- Read the digits of an escape. -/
def escapeCode (start width : Nat) : Scan Char := do
  need width
  let digits := (← get).window.take width
  if digits.length < width then fail start .escapeDigits
  else match hexValue? digits with
    | none => fail start .escapeDigits
    | some n =>
      match charOfCode? n with
      | none => fail start .escapeCode
      | some c =>
        skipMany width
        pure c

/-- Read an escape. -/
def escape (start : Nat) : Scan Char := do
  let c ← look 1
  match escapeLetter? c, escapeWidth? c with
  | some d, _ =>
    skipMany 2
    pure d
  | none, some width =>
    skipMany 2
    escapeCode start width
  | none, none => fail start .escape

/-- Read a word of a scalar between quotes, up to a gap or the closing quote.  The text is
put in front of `acc`, the last character first.  If the word ends with an escaped line
end, that begins the gap behind it. -/
def quotedWord (quote : Char) (start : Nat) : Nat → List Char → Scan (Gap × List Char)
  | 0, acc => pure (.none, acc)
  | fuel + 1, acc => do
    let c ← look 0
    let d ← look 1
    if isGap c then pure (.none, acc)
    else if quote = '\'' && c = quote && d = quote then
      skipMany 2
      need 2
      quotedWord quote start fuel (c :: acc)
    else if c = quote then pure (.none, acc)
    else if quote = '"' && c = '\\' && isBreak d then
      need 3
      skip
      skipBreak
      pure (.folded none [], acc)
    else if quote = '"' && c = '\\' then
      let e ← escape start
      need 2
      quotedWord quote start fuel (e :: acc)
    else
      skip
      need 2
      quotedWord quote start fuel (c :: acc)

/-- Read on in a scalar between quotes, with its text so far, the last character
first. -/
def quotedOn (quote : Char) (start : Nat) : Nat → List Char → Scan (List Char)
  | 0, _ => fail start .unclosed
  | fuel + 1, acc => do
    need 4
    if (← get).atAnyMarker then fail start .marker
    else if isEnd (← look 0) then fail start .unclosed
    else
      let bound := (← get).bound
      let (gap, acc) ← quotedWord quote start bound acc
      need 1
      if (← look 0) = quote then
        skip
        pure acc
      else
        let gap ← gap.scan start 0 bound
        quotedOn quote start fuel (gap.text ++ acc)

/-- Read a scalar between quotes. -/
def quotedScalar (quote : Char) : Scan Scalar := do
  let start ← line
  skip
  let acc ← quotedOn quote start (← get).bound []
  return ⟨String.ofList acc.reverse, false⟩

end Stepwise.Yaml
