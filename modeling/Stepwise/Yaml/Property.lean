import Stepwise.Yaml.Scalar

/-!
# Names, tags and directives

A node may have a name, by which it can be referred to, and a tag, which says what kind
of thing it is.  A tag is written in full between angles, or as a handle and a suffix.
A handle stands for the first part of a tag.  In the suffix, percent signs with two
hexadecimal digits stand for bytes.

A directive in front of a document tells the version of the notation, or what a handle
stands for.
-/

namespace Stepwise.Yaml

open Scan (need look skip skipBreak skipWhile skipLine takeWhile line fail)

/-! ## Names -/

/-- The characters that may follow a name, other than gaps. -/
def nameFollowers : List Char := ['?', ':', ',', ']', '\x7d', '%', '@', Char.ofNat 0x60]

/-- Read a name behind its first character. -/
def nodeName : Scan String := do
  let start ← line
  skip
  let name ← takeWhile isNameChar
  let c ← look 0
  if name.isEmpty || !(isGap c || nameFollowers.contains c) then fail start .nodeName
  else pure (String.ofList name)

/-! ## Tags -/

/-- The characters of a tag. -/
def isTagChar (c : Char) : Bool :=
  isNameChar c || [';', '/', '?', ':', '@', '&', '=', '+', '$', '.', ',', '%', '!', '~', '*',
    '\'', '(', ')', '[', ']'].contains c

/-- The number of bytes of a character, by its first byte. -/
def charWidth? (byte : Nat) : Option Nat :=
  if byte < 0x80 then some 1
  else if byte / 0x20 = 6 then some 2
  else if byte / 0x10 = 14 then some 3
  else if byte / 8 = 30 then some 4
  else none

/-- The value that the first of several bytes of a character adds. -/
def leadingBits (width byte : Nat) : Nat :=
  if width = 1 then byte else byte % (1 <<< (7 - width))

/-- Read the byte of an escape. -/
def escapedByte (start : Nat) : Scan Nat := do
  need 3
  if (← look 0) ≠ '%' then fail start .tagEscape
  else match hexValue? [← look 1, ← look 2] with
    | some n => pure n
    | none => fail start .tagEscape

/-- Read further bytes of a character, after those with the value `n`. -/
def escapedBytes (start : Nat) : Nat → Nat → Scan Nat
  | 0, n => pure n
  | more + 1, n => do
    let byte ← escapedByte start
    if byte / 0x40 = 2 then
      skipMany 3
      escapedBytes start more (n * 0x40 + byte % 0x40)
    else fail start .tagTrailing

/-- Read a character that is written as escapes. -/
def escapedChar (start : Nat) : Scan Char := do
  let byte ← escapedByte start
  match charWidth? byte with
  | none => fail start .tagLeading
  | some width =>
    skipMany 3
    return Char.ofNat (← escapedBytes start (width - 1) (leadingBits width byte))

/-- Read the characters of a tag, in front of `acc` and the last one first. -/
def tagCharsOnto (start : Nat) : Nat → List Char → Scan (List Char)
  | 0, acc => pure acc
  | fuel + 1, acc => do
    need 1
    let c ← look 0
    if !isTagChar c then pure acc
    else if c = '%' then tagCharsOnto start fuel ((← escapedChar start) :: acc)
    else
      skip
      tagCharsOnto start fuel (c :: acc)

/-- Read the text of a tag after `before`.  It must have a character, unless `mayBeEmpty`. -/
def tagText (start : Nat) (mayBeEmpty : Bool) (before : List Char) : Scan (List Char) := do
  let acc ← tagCharsOnto start (← get).bound []
  if acc.isEmpty && !mayBeEmpty then fail start .tagMissing
  else pure (before ++ acc.reverse)

/-- Read what may be a handle: an exclamation mark, a name, and perhaps another exclamation
mark. -/
def tagHandle (start : Nat) : Scan (List Char) := do
  need 1
  if (← look 0) ≠ '!' then fail start .tagHandle
  else
    skip
    let name ← takeWhile isNameChar
    if (← look 0) = '!' then
      skip
      pure ('!' :: name ++ ['!'])
    else pure ('!' :: name)

/-- A tag as it is written: its handle, which may be empty, and the rest. -/
structure TagName where
  /-- The handle. -/
  handle : String
  /-- The rest. -/
  suffix : String
deriving DecidableEq, Repr

/-- Read a tag between angles. -/
def fullTag (start : Nat) : Scan TagName := do
  skipMany 2
  let text ← tagText start false []
  if (← look 0) ≠ '>' then fail start .tagOpen
  else
    skip
    return ⟨"", String.ofList text⟩

/-- Read a tag with a handle.  Without a second exclamation mark the handle is just the
first, and the name belongs to the rest.  An exclamation mark alone is a tag of its
own. -/
def shortTag (start : Nat) : Scan TagName := do
  let handle ← tagHandle start
  if 1 < handle.length && handle.getLast? = some '!' then
    return ⟨String.ofList handle, String.ofList (← tagText start false [])⟩
  else
    let suffix ← tagText start true handle.tail
    return if suffix.isEmpty then ⟨"", "!"⟩ else ⟨"!", String.ofList suffix⟩

/-- Read a tag. -/
def nodeTag : Scan TagName := do
  let start ← line
  need 2
  let tag ← if (← look 1) = '<' then fullTag start else shortTag start
  need 1
  if isGap (← look 0) then pure tag else fail start .tagRest

/-! ## Directives -/

/-- A directive. -/
inductive Directive where
  /-- The version of the notation. -/
  | version (major minor : Nat)
  /-- What a handle stands for. -/
  | handle (handle meaning : String)
deriving DecidableEq, Repr

/-- Read a number of a version, after `digits` digits with the value `n`. -/
def versionNumber (start : Nat) : (fuel digits n : Nat) → Scan Nat
  | 0, _, n => pure n
  | fuel + 1, digits, n => do
    need 1
    let c ← look 0
    if c.isDigit then
      if digits = 2 then fail start .versionLong
      else
        skip
        versionNumber start fuel (digits + 1) (n * 10 + (c.toNat - '0'.toNat))
    else if digits = 0 then fail start .versionMissing
    else pure n

/-- Read a version. -/
def versionValue (start : Nat) : Scan Directive := do
  skipWhile isBlank
  let major ← versionNumber start 3 0 0
  if (← look 0) ≠ '.' then fail start .versionPoint
  else
    skip
    return .version major (← versionNumber start 3 0 0)

/-- Read a handle and what it stands for. -/
def handleValue (start : Nat) : Scan Directive := do
  skipWhile isBlank
  let handle ← tagHandle start
  if handle ≠ ['!'] && handle.getLast? ≠ some '!' then fail start .tagHandle
  else
    need 1
    if !isBlank (← look 0) then fail start .handleRest
    else
      skipWhile isBlank
      let meaning ← tagText start false []
      if isGap (← look 0) then
        return .handle (String.ofList handle) (String.ofList meaning)
      else fail start .tagRest

/-- Read a directive and go on behind its line. -/
def directive : Scan Directive := do
  let start ← line
  skip
  let name ← takeWhile isNameChar
  if name.isEmpty then fail start .directiveMissing
  else if !isGap (← look 0) then fail start .directiveName
  else
    let value ←
      if name = "YAML".toList then versionValue start
      else if name = "TAG".toList then handleValue start
      else fail start .directive
    skipWhile isBlank
    if (← look 0) = '#' then skipLine
    let c ← look 0
    if !isLineEnd c then fail start .lineRest
    else
      if isBreak c then skipBreak
      pure value

end Stepwise.Yaml
