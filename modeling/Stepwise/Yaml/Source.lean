/-!
# The source of a document

A document is read character by character, with the line and column kept for later.
Five characters and the pair of carriage return and line feed end a line.  Three of
these endings read as a line feed, the other two as themselves.

The text is loaded in blocks of at most 512 bytes, each when it is first looked at.
A control character that is no white space makes the whole document unreadable, but
only once its block is loaded.  What has been loaded and not yet read is the *window*.
Loading starts a new window at the current place.  Behind the end of the text the
window holds null characters, which can not stand in a text themselves.

A byte order mark at the very front of the text is dropped.  If the window starts with
another one, every line that begins inside the window loses its first character,
whatever that is.
-/

namespace Stepwise.Yaml

/-! ## What can go wrong -/

/-- What is wrong with a document. -/
inductive Fault where
  /-- A control character. -/
  | control
  /-- A character that starts nothing. -/
  | stray
  /-- A tab at the front of a further line of a plain scalar. -/
  | tab
  /-- A tab at the front of a line of a block scalar. -/
  | blockTab
  /-- A block scalar that is indented by nothing. -/
  | noIndent
  /-- Something behind the header of a block scalar or a directive. -/
  | lineRest
  /-- A quoted text that does not end. -/
  | unclosed
  /-- A document marker inside quotes. -/
  | marker
  /-- An escape that means nothing. -/
  | escape
  /-- An escape without its digits. -/
  | escapeDigits
  /-- An escape of no character. -/
  | escapeCode
  /-- A line that should be a key and has no colon. -/
  | colonMissing
  /-- A value where none is allowed. -/
  | value
  /-- A key where none is allowed. -/
  | key
  /-- A sequence entry where none is allowed. -/
  | entry
  /-- Too many collections inside one another. -/
  | depth
  /-- A directive without a name. -/
  | directiveMissing
  /-- A directive whose name goes on with something else. -/
  | directiveName
  /-- A directive that is not known. -/
  | directive
  /-- A version without a point. -/
  | versionPoint
  /-- A version without a number. -/
  | versionMissing
  /-- A version with a long number. -/
  | versionLong
  /-- A name of a node that is none. -/
  | nodeName
  /-- A tag that should be closed. -/
  | tagOpen
  /-- A tag handle that is none. -/
  | tagHandle
  /-- A tag without text. -/
  | tagMissing
  /-- A tag that is followed by something. -/
  | tagRest
  /-- A tag handle that is followed by something. -/
  | handleRest
  /-- An escape in a tag that is none. -/
  | tagEscape
  /-- An escape in a tag that begins no character. -/
  | tagLeading
  /-- An escape in a tag that goes on with no character. -/
  | tagTrailing
  /-- Directives without a document. -/
  | documentStart
  /-- A second version. -/
  | versionTwice
  /-- A version that is not supported. -/
  | version
  /-- A tag handle that is given twice. -/
  | handleTwice
  /-- A tag handle that is not given. -/
  | handle
  /-- Something that is no node. -/
  | node
  /-- Something that is no entry of a block sequence. -/
  | blockSequence
  /-- Something that is no key of a block mapping. -/
  | blockMapping
  /-- Something that is no end of an item in brackets. -/
  | flowSequence
  /-- Something that is no end of an item in braces. -/
  | flowMapping
  /-- A reference to a name that was not given. -/
  | reference (name : String)
  /-- A reference to the node it stands in. -/
  | selfReference (name : String)
  /-- Too much that comes from references. -/
  | aliasing
  /-- A scalar that does not fit its tag. -/
  | tag (found text wanted : String)
  /-- Binary data that are none. -/
  | binary
  /-- Something to be merged that is no mapping. -/
  | merge
deriving DecidableEq, Repr

/-- The wording of a fault. -/
def Fault.message : Fault → String
  | .control => "control characters are not allowed"
  | .stray => "found character that cannot start any token"
  | .tab => "found a tab character that violates indentation"
  | .blockTab => "found a tab character where an indentation space is expected"
  | .noIndent => "found an indentation indicator equal to 0"
  | .lineRest => "did not find expected comment or line break"
  | .unclosed => "found unexpected end of stream"
  | .marker => "found unexpected document indicator"
  | .escape => "found unknown escape character"
  | .escapeDigits => "did not find expected hexdecimal number"
  | .escapeCode => "found invalid Unicode character escape code"
  | .colonMissing => "could not find expected ':'"
  | .value => "mapping values are not allowed in this context"
  | .key => "mapping keys are not allowed in this context"
  | .entry => "block sequence entries are not allowed in this context"
  | .depth => "exceeded max depth of 10000"
  | .directiveMissing => "could not find expected directive name"
  | .directiveName => "found unexpected non-alphabetical character"
  | .directive => "found unknown directive name"
  | .versionPoint => "did not find expected digit or '.' character"
  | .versionMissing => "did not find expected version number"
  | .versionLong => "found extremely long version number"
  | .nodeName => "did not find expected alphabetic or numeric character"
  | .tagOpen => "did not find the expected '>'"
  | .tagHandle => "did not find expected '!'"
  | .tagMissing => "did not find expected tag URI"
  | .tagRest => "did not find expected whitespace or line break"
  | .handleRest => "did not find expected whitespace"
  | .tagEscape => "did not find URI escaped octet"
  | .tagLeading => "found an incorrect leading UTF-8 octet"
  | .tagTrailing => "found an incorrect trailing UTF-8 octet"
  | .documentStart => "did not find expected <document start>"
  | .versionTwice => "found duplicate %YAML directive"
  | .version => "found incompatible YAML document"
  | .handleTwice => "found duplicate %TAG directive"
  | .handle => "found undefined tag handle"
  | .node => "did not find expected node content"
  | .blockSequence => "did not find expected '-' indicator"
  | .blockMapping => "did not find expected key"
  | .flowSequence => "did not find expected ',' or ']'"
  | .flowMapping => "did not find expected ',' or '\x7d'"
  | .reference name => "unknown anchor '" ++ name ++ "' referenced"
  | .selfReference name => "anchor '" ++ name ++ "' value contains itself"
  | .aliasing => "document contains excessive aliasing"
  | .tag found text wanted =>
    let tick := String.singleton (Char.ofNat 0x60)
    "cannot decode " ++ found ++ " " ++ tick ++ text ++ tick ++ " as a " ++ wanted
  | .binary => "!!binary value contains invalid base64 data"
  | .merge => "map merge requires map or sequence of maps as the value"

/-- A fault and the line that is named with it, if any. -/
structure SyntaxError where
  /-- The line named. -/
  line? : Option Nat
  /-- The fault. -/
  fault : Fault
deriving DecidableEq, Repr

namespace SyntaxError

/-- The wording of a syntax error. -/
def message (e : SyntaxError) : String :=
  let place := match e.line? with
    | some n => "line " ++ toString n ++ ": "
    | none => ""
  "yaml: " ++ place ++ e.fault.message

/-- A fault of the whole document. -/
def ofDocument (f : Fault) : SyntaxError := ⟨none, f⟩

/-- A fault among the characters, in a piece of text that began in the line `start` and
was read up to the line `here`.  The first line of a document is not named. -/
def ofText (start here : Nat) (f : Fault) : SyntaxError :=
  ⟨if 1 < start then some start else if 1 < here then some here else none, f⟩

/-- A fault among the tokens, in a node that began in the line `start`, at a token in the
line `here`.  The line before the one in question is named, if there is one. -/
def ofToken (start here : Nat) (f : Fault) : SyntaxError :=
  ⟨if 1 < start then some (start - 1) else if 1 < here then some (here - 1) else none, f⟩

end SyntaxError

/-! ## Characters -/

/-- Is this a space or a tab? -/
def isBlank (c : Char) : Bool := c = ' ' || c = '\t'

/-- Does this character end a line? -/
def isBreak (c : Char) : Bool :=
  c = '\n' || c = '\r' || c.toNat = 0x85 || c.toNat = 0x2028 || c.toNat = 0x2029

/-- What stands behind the end of a text. -/
def endMark : Char := Char.ofNat 0

/-- Is this behind the end of the text? -/
def isEnd (c : Char) : Bool := c = endMark

/-- Does the line end here? -/
def isLineEnd (c : Char) : Bool := isBreak c || isEnd c

/-- Is this a blank, a line end or the end of the text? -/
def isGap (c : Char) : Bool := isBlank c || isLineEnd c

/-- Is this a letter, digit, dash or underscore? -/
def isNameChar (c : Char) : Bool := c.isAlphanum || c = '-' || c = '_'

/-- Is this a byte order mark? -/
def isOrderMark (c : Char) : Bool := c.toNat = 0xFEFF

/-- May this character stand in a document? -/
def isAllowed (c : Char) : Bool :=
  let n := c.toNat
  n = 0x09 || n = 0x0A || n = 0x0D || (0x20 ≤ n && n ≤ 0x7E) || n = 0x85
    || (0xA0 ≤ n && n ≤ 0xFFFD) || 0x10000 ≤ n

/-- What a line end reads as. -/
def breakChar (c : Char) : Char :=
  if c.toNat = 0x2028 || c.toNat = 0x2029 then c else '\n'

/-! ## Blocks -/

/-- The number of bytes of a block. -/
def blockSize : Nat := 512

/-- Cut a text into blocks.  The first has room for `room` more bytes, and holds the
characters `acc` so far, the last one first. -/
def blocksOnto (room : Nat) (acc : List Char) : List Char → List (List Char)
  | [] => [acc.reverse]
  | c :: cs =>
    if c.utf8Size ≤ room then blocksOnto (room - c.utf8Size) (c :: acc) cs
    else acc.reverse :: blocksOnto (blockSize - c.utf8Size) [c] cs

/-- The blocks of a text, without a byte order mark at the front.  The mark takes its
room all the same. -/
def blocksOf (cs : List Char) : List (List Char) :=
  match cs with
  | c :: rest =>
    if isOrderMark c then blocksOnto (blockSize - c.utf8Size) [] rest
    else blocksOnto blockSize [] cs
  | [] => []

/-- Are there at least `n` characters? -/
def reaches : Nat → List Char → Bool
  | 0, _ => true
  | _ + 1, [] => false
  | n + 1, _ :: cs => reaches n cs

/-- Load blocks behind the window until it has `n` characters.  At the end of the text,
one end mark is added instead.  Nothing if a block has a control character. -/
def load? (n : Nat) : List Char → List (List Char) → Option (List Char × List (List Char))
  | window, [] => some (window ++ [endMark], [])
  | window, block :: blocks =>
    if block.all isAllowed then
      let window := window ++ block
      if reaches n window then some (window, blocks) else load? n window blocks
    else none

/-! ## Places -/

/-- A place in a document. -/
structure Cursor where
  /-- The window from here on. -/
  window : List Char := []
  /-- The blocks that are not loaded yet. -/
  blocks : List (List Char)
  /-- Does the window start with a byte order mark? -/
  marked : Bool := false
  /-- The line, counted from one. -/
  line : Nat := 1
  /-- The column, counted from zero. -/
  column : Nat := 0
  /-- The number of characters before. -/
  index : Nat := 0
  /-- The number of line ends since the last character that is no blank. -/
  breaks : Nat := 0
  /-- More than the number of characters of the text, which bounds every loop. -/
  bound : Nat

namespace Cursor

/-- The start of a text. -/
def start (text : String) : Cursor :=
  { blocks := blocksOf text.toList, bound := text.length + 4 }

/-- The character `n` characters ahead. -/
def look (p : Cursor) (n : Nat) : Char := p.window.getD n endMark

/-- Go on by one character of the same line. -/
def skip (p : Cursor) : Cursor :=
  { p with
    window := p.window.tail
    column := p.column + 1
    index := p.index + 1
    breaks := if isBlank (p.look 0) then p.breaks else 0 }

/-- Go on past the end of the line, if this is one. -/
def skipBreak (p : Cursor) : Cursor :=
  let size := if p.look 0 = '\r' && p.look 1 = '\n' then 2 else if isBreak (p.look 0) then 1 else 0
  if size = 0 then p
  else
    { p with
      window := p.window.drop size
      line := p.line + 1
      column := 0
      index := p.index + size
      breaks := p.breaks + 1 }

/-- Is this the start of a line with a document marker made of the given character? -/
def atMarker (p : Cursor) (c : Char) : Bool :=
  p.column = 0 && p.look 0 = c && p.look 1 = c && p.look 2 = c && isGap (p.look 3)

/-- Is this the start of a line with any document marker? -/
def atAnyMarker (p : Cursor) : Bool := p.atMarker '-' || p.atMarker '.'

end Cursor

/-! ## Scanning -/

/-- Scanning goes through a text until it fails. -/
abbrev Scan := StateT Cursor (Except SyntaxError)

namespace Scan

/-- Make the window at least `n` characters long.  At the end of the text it only grows by
one end mark. -/
def need (n : Nat) : Scan Unit := fun p =>
  if reaches n p.window then .ok ((), p)
  else match load? n p.window p.blocks with
    | none => .error (.ofDocument .control)
    | some (window, blocks) =>
      .ok ((), { p with window, blocks, marked := window.head?.any isOrderMark })

/-- The character `n` characters ahead. -/
def look (n : Nat) : Scan Char := do return (← get).look n

/-- Go on by one character of the same line. -/
def skip : Scan Unit := modify Cursor.skip

/-- Go on past the end of the line. -/
def skipBreak : Scan Unit := do
  need 2
  modify Cursor.skipBreak

/-- The line reached. -/
def line : Scan Nat := do return (← get).line

/-- The column reached. -/
def column : Scan Nat := do return (← get).column

/-- Fail in a piece of text that began in the line `start`. -/
def fail {α : Type} (start : Nat) (f : Fault) : Scan α := do throw (.ofText start (← line) f)

/-- Take characters as long as they pass a test, in front of `acc` and the last one first.
At most `fuel` characters. -/
def takeOnto (test : Char → Bool) : Nat → List Char → Scan (List Char)
  | 0, acc => pure acc
  | fuel + 1, acc => do
    need 1
    let c ← look 0
    if test c then
      skip
      takeOnto test fuel (c :: acc)
    else pure acc

/-- Take characters as long as they pass a test. -/
def takeWhile (test : Char → Bool) : Scan (List Char) := do
  return (← takeOnto test (← get).bound []).reverse

/-- Go on as long as the characters pass a test. -/
def skipWhile (test : Char → Bool) : Scan Unit := do
  let _ ← takeOnto test (← get).bound []

/-- Go on to the end of the line. -/
def skipLine : Scan Unit := skipWhile fun c => !isLineEnd c

/-! ## Comments -/

/-- How far ahead comments are looked for. -/
def commentReach : Nat := 512

/-- Is there a comment behind blanks, from the `n`-th character on and among at most `reach`
characters? -/
def lineCommentFrom : (reach n : Nat) → Scan Bool
  | 0, _ => pure false
  | reach + 1, n => do
    need (n + 1)
    let c ← look n
    if isBlank c then lineCommentFrom reach (n + 1) else pure (c = '#')

/-- Go on behind a comment at the end of the line, if there is one. -/
def skipLineComment : Scan Unit := do
  if (← get).breaks = 0 && (← lineCommentFrom commentReach 0) then skipLine

/-- How many characters after this place a comment begins, if there is only white space in
between, from the `n`-th character on and among at most `reach` characters.  Line ends
that take more than one byte are not looked behind. -/
def commentFrom : (reach n : Nat) → Scan (Option Nat)
  | 0, _ => pure none
  | reach + 1, n => do
    need (n + 1)
    let c ← look n
    if isBlank c || c = '\n' || c = '\r' then commentFrom reach (n + 1)
    else if isBreak c then do
      if 0 < reach then need (n + 2)
      pure none
    else pure (if c = '#' then some n else none)

/-- The same behind the end of the line. -/
def commentBelow : Scan (Option Nat) := do
  let c ← look 0
  if isBreak c && c ≠ '\n' && c ≠ '\r' then do
    need 2
    pure none
  else commentFrom (commentReach - 1) 1

/-- Go on through white space up to the character with a given index. -/
def skipTo (index : Nat) : Nat → Scan Unit
  | 0 => pure ()
  | fuel + 1 => do
    if (← get).index < index then
      need 1
      if isBreak (← look 0) then skipBreak else skip
      skipTo index fuel

/-- Go on behind a comment, and behind further comments that follow it. -/
def skipComments : Nat → Scan Unit
  | 0 => pure ()
  | fuel + 1 => do
    skipLine
    match ← commentBelow with
    | none => pure ()
    | some n =>
      skipTo ((← get).index + n) commentReach
      skipComments fuel

end Scan

end Stepwise.Yaml
