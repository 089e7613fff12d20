import Stepwise.Yaml.Scalar

/-!
# Block scalars

A block scalar is written in indented lines below a header.  A bar in the header keeps
the line ends, and an angle folds them like those of a plain scalar, except around
lines that begin with a blank.  A digit in the header tells the indentation, which is
otherwise that of the first line with a text.  A sign in the header tells what
becomes of the line ends behind the last line: a minus drops them all, a plus keeps
them all, and without a sign one is kept.
-/

namespace Stepwise.Yaml

open Scan (need look skip skipBreak skipWhile skipLine line column fail)

/-- What becomes of the line ends behind a block scalar. -/
inductive Chomping where
  /-- All are dropped. -/
  | strip
  /-- One is kept. -/
  | clip
  /-- All are kept. -/
  | keep
deriving DecidableEq, Repr

/-- The header of a block scalar. -/
structure BlockHeader where
  /-- What becomes of the line ends behind it. -/
  chomping : Chomping := .clip
  /-- The indentation given, or zero. -/
  indent : Nat := 0

/-- Read the sign in a header, if there is one. -/
def chomping? : Scan (Option Chomping) := do
  need 1
  let c ← look 0
  if c = '+' then
    skip
    pure (some .keep)
  else if c = '-' then
    skip
    pure (some .strip)
  else pure none

/-- Read the digit in a header, if there is one. -/
def headerDigit? (start : Nat) : Scan (Option Nat) := do
  need 1
  let c ← look 0
  if c = '0' then fail start .noIndent
  else if c.isDigit then
    skip
    pure (some (c.toNat - '0'.toNat))
  else pure none

/-- Read a header, with the sign and the digit in any order. -/
def blockHeader (start : Nat) : Scan BlockHeader := do
  match ← chomping? with
  | some chomping => return { chomping, indent := (← headerDigit? start).getD 0 }
  | none =>
    match ← headerDigit? start with
    | none => return {}
    | some indent => return { chomping := (← chomping?).getD .clip, indent }

/-- Go on behind the line of a header. -/
def headerEnd (start : Nat) : Scan Unit := do
  skipWhile isBlank
  if (← look 0) = '#' then skipLine
  let c ← look 0
  if !isLineEnd c then fail start .lineRest
  else if isBreak c then skipBreak

/-- Go on behind the spaces in front of a line, up to the column `indent` if that is not
zero. -/
def skipIndent (indent : Nat) : Nat → Scan Unit
  | 0 => pure ()
  | fuel + 1 => do
    need 1
    if (indent = 0 || (← column) < indent) && (← look 0) = ' ' then
      skip
      skipIndent indent fuel

/-- Go on behind empty lines and the indentation of the next line.  The answer has the
greatest column reached and the line ends in front of `acc`, the last one first. -/
def emptyLines (start indent : Nat) : Nat → Nat → List Char → Scan (Nat × List Char)
  | 0, widest, acc => pure (widest, acc)
  | fuel + 1, widest, acc => do
    skipIndent indent (← get).bound
    let c ← look 0
    let reached ← column
    let widest := max widest reached
    if (indent = 0 || reached < indent) && c = '\t' then fail start .blockTab
    else if isBreak c then
      skipBreak
      emptyLines start indent fuel widest (breakChar c :: acc)
    else pure (widest, acc)

/-- A block scalar in progress. -/
structure BlockText where
  /-- The text so far, the last character first. -/
  acc : List Char := []
  /-- The line end behind the last line. -/
  lineEnd : List Char := []
  /-- The line ends of the empty lines after it, the last one first. -/
  more : List Char := []
  /-- Does the last line begin with a blank? -/
  indented : Bool := false

/-- What stands between the last line and the next one, the last character first.
`indented` says whether the next line begins with a blank. -/
def BlockText.gap (t : BlockText) (literal indented : Bool) : List Char :=
  if !literal && !t.indented && !indented && t.lineEnd = ['\n'] then
    if t.more.isEmpty then [' '] else t.more
  else t.more ++ t.lineEnd

/-- Read the lines of a block scalar. -/
def blockLines (literal : Bool) (start indent : Nat) : Nat → BlockText → Scan BlockText
  | 0, t => pure t
  | fuel + 1, t => do
    need 1
    let c ← look 0
    if (← column) = indent && !isEnd c then
      let bound := (← get).bound
      let acc ← Scan.takeOnto (fun c => !isLineEnd c) bound (t.gap literal (isBlank c) ++ t.acc)
      need 2
      let d ← look 0
      skipBreak
      let lineEnd := if isBreak d then [breakChar d] else []
      let (_, more) ← emptyLines start indent bound 0 []
      blockLines literal start indent fuel { acc, lineEnd, more, indented := isBlank c }
    else pure t

/-- Read a block scalar.  `margin` is the least column of its lines. -/
def blockScalar (literal : Bool) (margin : Nat) : Scan Scalar := do
  let start ← line
  skip
  let header ← blockHeader start
  headerEnd start
  let given := if header.indent = 0 then 0 else margin - 1 + header.indent
  let bound := (← get).bound
  let (widest, more) ← emptyLines start given bound 0 []
  let indent := if given = 0 then max widest (max margin 1) else given
  let t ← blockLines literal start indent bound { more }
  let tail := match header.chomping with
    | .strip => []
    | .clip => t.lineEnd
    | .keep => t.more ++ t.lineEnd
  return ⟨String.ofList (tail ++ t.acc).reverse, false⟩

end Stepwise.Yaml
