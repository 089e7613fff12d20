import Stepwise.Yaml.Token

/-!
# The scanner

The scanner makes the tokens of a text, always a few more than have been taken.

A key is recognised only at the colon behind it.  Until then its first token is a
*candidate*, one for every level of nested brackets, and the token that announces a
key is put in front of it afterwards.  So a token can be taken only when it is no
candidate any more, and when two more tokens stand behind it.

A candidate is given up at the end of its line and after 1024 characters.  In a block,
text at the column of the block's keys must turn out to be a key.

The scanner notes by number which tokens are candidates, and it forgets the number of
an opening bracket at the closing one, if nothing in between was a candidate.  Then
the bracket may be taken although it still is a candidate.  If it turns out to be a
key after that, the announcement comes too late and is put behind all other tokens.
-/

namespace Stepwise.Yaml

/-- A token that may turn out to be a key. -/
structure Candidate where
  /-- May it still be one? -/
  possible : Bool := false
  /-- Must it be one? -/
  required : Bool := false
  /-- The number of the token. -/
  token : Nat := 0
  /-- Its line. -/
  line : Nat := 1
  /-- Its column. -/
  column : Nat := 0
  /-- The number of characters before it. -/
  index : Nat := 0

/-- Is a place too far behind a candidate? -/
def Candidate.isStale (k : Candidate) (p : Cursor) : Bool :=
  k.line < p.line || k.index + 1024 < p.index

/-- A text that is being cut into tokens. -/
structure Scanner where
  /-- The place reached. -/
  cursor : Cursor
  /-- The tokens made and not yet taken. -/
  queue : List Token := []
  /-- The number of tokens taken. -/
  taken : Nat := 0
  /-- May the next token be taken? -/
  ready : Bool := false
  /-- Has the start of the text been made? -/
  started : Bool := false
  /-- The columns of the open block collections, the innermost first. -/
  indents : List Nat := []
  /-- The candidates, one for each level of brackets, the outermost first. -/
  keys : Array Candidate := #[{}]
  /-- The levels of the tokens that are noted as candidates, by number. -/
  noted : List (Nat × Nat) := []
  /-- May a key begin here? -/
  keyAllowed : Bool := true

namespace Scanner

/-- Is this place inside brackets? -/
def inFlow (s : Scanner) : Bool := 1 < s.keys.size

/-- The column behind the keys of the innermost block collection. -/
def margin (s : Scanner) : Nat :=
  match s.indents with
  | [] => 0
  | i :: _ => i + 1

/-- The number that the next token gets. -/
def nextNumber (s : Scanner) : Nat := s.taken + s.queue.length

/-- Add a token. -/
def push (s : Scanner) (t : Token) : Scanner := { s with queue := s.queue ++ [t] }

/-- Put in a token that gets a given number.  If a token of that number was taken already,
it comes last. -/
def insert (s : Scanner) (number : Nat) (t : Token) : Scanner :=
  if number < s.taken then s.push t
  else { s with queue := s.queue.insertIdx (number - s.taken) t }

/-- Forget that a token is a candidate. -/
def forget (s : Scanner) (number : Nat) : Scanner :=
  { s with noted := s.noted.filter fun (n, _) => n ≠ number }

/-- The innermost candidate. -/
def key (s : Scanner) : Candidate := s.keys.back?.getD {}

/-- Change the candidate of a level. -/
def setKey (s : Scanner) (level : Nat) (k : Candidate) : Scanner :=
  { s with keys := s.keys.setIfInBounds level k }

/-- The level of the innermost candidate. -/
def level (s : Scanner) : Nat := s.keys.size - 1

/-- The most collections inside one another. -/
def depthLimit : Nat := 10000

end Scanner

/-- Fetching tokens changes a scanner until it fails. -/
abbrev Fetch := StateT Scanner (Except SyntaxError)

namespace Fetch

/-- Scan the text from the place reached. -/
def onText {α : Type} (x : Scan α) : Fetch α := fun s =>
  match x s.cursor with
  | .ok (a, cursor) => .ok (a, { s with cursor })
  | .error e => .error e

/-- Fail in a piece of text that began in the line `start`. -/
def fail {α : Type} (start : Nat) (f : Fault) : Fetch α := onText (Scan.fail start f)

/-- Fail at the place reached. -/
def failHere {α : Type} (f : Fault) : Fetch α := do fail (← get).cursor.line f

/-- Add a token that begins at the place reached. -/
def emit (mark : Mark) : Fetch Unit := modify fun s => s.push ⟨mark, s.cursor.line⟩

/-- Add a token of `n` characters. -/
def emitSkip (mark : Mark) (n : Nat) : Fetch Unit := do
  emit mark
  onText (skipMany n)

/-- Say whether a key may begin here. -/
def allowKey (b : Bool) : Fetch Unit := modify fun s => { s with keyAllowed := b }

/-! ## Indentation -/

/-- Open a block collection at a column that no collection has reached yet.  Its token is
put in with the given number, or at the end. -/
def openBlock (mark : Mark) (column line : Nat) (number? : Option Nat) : Fetch Unit := do
  let s ← get
  if !s.inFlow && s.margin ≤ column then
    if Scanner.depthLimit ≤ s.indents.length then failHere .depth
    else
      let s := { s with indents := column :: s.indents }
      set (match number? with
        | some number => s.insert number ⟨mark, line⟩
        | none => s.push ⟨mark, line⟩)

/-- Open a block collection at the place reached. -/
def openBlockHere (mark : Mark) : Fetch Unit := do
  let p := (← get).cursor
  openBlock mark p.column p.line none

/-- Close the block collections that pass a test, from the innermost on. -/
def closeBlocks (test : Nat → Bool) (line : Nat) : Fetch Unit := do
  let s ← get
  if !s.inFlow then
    let closed := s.indents.takeWhile test
    set { s with
      indents := s.indents.drop closed.length
      queue := s.queue ++ List.replicate closed.length (Token.mk .blockEnd line) }

/-- Close all block collections. -/
def closeAll : Fetch Unit := do closeBlocks (fun _ => true) (← get).cursor.line

/-! ## Candidates for keys -/

/-- Is there still a candidate at a level?  A stale one is given up. -/
def isCandidate (level : Nat) : Fetch Bool := do
  let s ← get
  let k := s.keys.getD level {}
  if !k.possible then pure false
  else if k.isStale s.cursor then
    if k.required then fail k.line .colonMissing
    else
      set (s.setKey level { k with possible := false })
      pure false
  else pure true

/-- Give up the innermost candidate. -/
def dropKey : Fetch Unit := do
  let s ← get
  let k := s.key
  if k.possible then
    if k.required then fail k.line .colonMissing
    else set ((s.setKey s.level { k with possible := false }).forget k.token)

/-- Make the next token a candidate, if a key may begin here. -/
def saveKey : Fetch Unit := do
  let s ← get
  if s.keyAllowed then
    let p := s.cursor
    let number := s.nextNumber
    let required := !s.inFlow && s.indents.head? = some p.column
    dropKey
    modify fun s =>
      { s.setKey s.level ⟨true, required, number, p.line, p.column, p.index⟩ with
        noted := (number, s.level) :: (s.forget number).noted }

/-! ## White space and comments -/

/-- Go on to the next token.  A new line may begin with a key, unless it is inside
brackets.  Tabs count as white space only where no key may begin. -/
def skipSpace : Nat → Fetch Unit
  | 0 => pure ()
  | fuel + 1 => do
    onText (Scan.need 1)
    let p := (← get).cursor
    if p.column = 0 && p.marked then onText Scan.skip
    let s ← get
    let tabs := s.inFlow || !s.keyAllowed
    onText (Scan.skipWhile fun c => c = ' ' || (tabs && c = '\t'))
    if (← get).cursor.look 0 = '#' then onText (Scan.skipComments s.cursor.bound)
    if isBreak ((← get).cursor.look 0) then
      onText Scan.skipBreak
      if !s.inFlow then allowKey true
      skipSpace fuel

/-! ## One token at a time -/

/-- The start of the text. -/
def streamStart : Fetch Unit := do
  modify fun s => { s with started := true }
  emit .streamStart

/-- The end of the text, which is at the start of a line. -/
def streamEnd : Fetch Unit := do
  modify fun s =>
    if s.cursor.column = 0 then s
    else { s with cursor := { s.cursor with column := 0, line := s.cursor.line + 1 } }
  closeAll
  dropKey
  allowKey false
  emit .streamEnd

/-- A document marker. -/
def documentMarker (mark : Mark) : Fetch Unit := do
  closeAll
  dropKey
  allowKey false
  emitSkip mark 3

/-- A directive. -/
def directive : Fetch Unit := do
  closeAll
  dropKey
  allowKey false
  let line := (← get).cursor.line
  let d ← onText Yaml.directive
  modify fun s => s.push ⟨.directive d, line⟩

/-- An opening bracket or brace. -/
def opening (mark : Mark) : Fetch Unit := do
  saveKey
  let s ← get
  if Scanner.depthLimit < s.keys.size then failHere .depth
  else
    let p := s.cursor
    set { s with
      keys := s.keys.push ⟨false, false, s.nextNumber, p.line, p.column, p.index⟩
      keyAllowed := true }
    emitSkip mark 1

/-- A closing bracket or brace. -/
def closing (mark : Mark) : Fetch Unit := do
  dropKey
  let s ← get
  if s.inFlow then set { s.forget s.key.token with keys := s.keys.pop }
  allowKey false
  emitSkip mark 1

/-- A comma. -/
def comma : Fetch Unit := do
  dropKey
  allowKey true
  emitSkip .comma 1

/-- The dash of a sequence entry. -/
def entry : Fetch Unit := do
  let s ← get
  if !s.inFlow && !s.keyAllowed then failHere .entry
  else
    openBlockHere .blockSequence
    dropKey
    allowKey true
    emitSkip .entry 1

/-- The question mark of a key that is marked as one. -/
def markedKey : Fetch Unit := do
  let s ← get
  if !s.inFlow && !s.keyAllowed then failHere .key
  else
    openBlockHere .blockMapping
    dropKey
    allowKey !s.inFlow
    emitSkip .key 1

/-- The colon of a value.  If there is a candidate, it becomes a key. -/
def value : Fetch Unit := do
  let level := (← get).level
  if ← isCandidate level then
    let s ← get
    let k := s.key
    set (s.insert k.token ⟨.key, k.line⟩)
    openBlock .blockMapping k.column k.line (some k.token)
    modify fun s => (s.setKey level { k with possible := false }).forget k.token
    allowKey false
  else
    let s ← get
    if !s.inFlow && !s.keyAllowed then failHere .value
    else
      openBlockHere .blockMapping
      allowKey !s.inFlow
  emitSkip .value 1

/-- A token that may be a key and is read by `scan`. -/
def keyLike (scan : Scan Mark) : Fetch Unit := do
  saveKey
  allowKey false
  let line := (← get).cursor.line
  let mark ← onText scan
  modify fun s => s.push ⟨mark, line⟩

/-- A plain scalar.  The place after it may be in another line, where a key may
begin. -/
def plain : Fetch Unit := do
  saveKey
  allowKey false
  let s ← get
  let (scalar, folded) ← onText (plainScalar s.inFlow s.margin)
  if folded then allowKey true
  modify fun t => t.push ⟨.scalar scalar, s.cursor.line⟩

/-- A block scalar. -/
def block (literal : Bool) : Fetch Unit := do
  dropKey
  allowKey true
  let s ← get
  let scalar ← onText (blockScalar literal s.margin)
  modify fun t => t.push ⟨.scalar scalar, s.cursor.line⟩

/-- The characters that begin no plain scalar. -/
def indicators : List Char :=
  ['-', '?', ':', ',', '[', ']', '\x7b', '\x7d', '#', '&', '*', '!', '|', '>', '\'', '"', '%',
   '@', Char.ofNat 0x60]

/-- Does a plain scalar begin with the character `c` in front of `d`?  A dash may begin
one, and in a block a question mark or a colon, if no gap follows. -/
def beginsPlain (inFlow : Bool) (c d : Char) : Bool :=
  (!indicators.contains c && !isGap c)
    || (c = '-' && !isBlank d)
    || (!inFlow && (c = '?' || c = ':') && !isGap d)

/-- A token that begins with the character `c` in front of `d`. -/
def inLine (inFlow : Bool) (c d : Char) : Fetch Unit :=
  if c = '[' then opening .openSequence
  else if c = '\x7b' then opening .openMapping
  else if c = ']' then closing .closeSequence
  else if c = '\x7d' then closing .closeMapping
  else if c = ',' then comma
  else if c = '?' && (inFlow || isGap d) then markedKey
  else if c = ':' && (inFlow || isGap d) then value
  else if c = '*' then keyLike (.reference <$> nodeName)
  else if c = '&' then keyLike (.name <$> nodeName)
  else if c = '!' then keyLike (.tag <$> nodeTag)
  else if c = '|' && !inFlow then block true
  else if c = '>' && !inFlow then block false
  else if c = '\'' || c = '"' then keyLike (.scalar <$> quotedScalar c)
  else if beginsPlain inFlow c d then plain
  else failHere .stray

/-- Make the next token.  A comment behind it is skipped, except behind a dash. -/
def next : Fetch Unit := do
  onText (Scan.need 1)
  let s ← get
  if !s.started then streamStart
  else
    skipSpace s.cursor.bound
    let column := (← get).cursor.column
    closeBlocks (column < ·) s.cursor.line
    onText (Scan.need 4)
    let p := (← get).cursor
    let c := p.look 0
    let d := p.look 1
    if isEnd c then streamEnd
    else if p.column = 0 && c = '%' then directive
    else if p.atMarker '-' then documentMarker .documentStart
    else if p.atMarker '.' then documentMarker .documentEnd
    else if c = '-' && isGap d then entry
    else
      inLine s.inFlow c d
      onText Scan.skipLineComment

/-- Make tokens until the next one may be taken. -/
def more : Nat → Fetch Unit
  | 0 => pure ()
  | fuel + 1 => do
    let s ← get
    match s.queue with
    | _ :: _ :: _ :: _ =>
      match s.noted.lookup s.taken with
      | none => pure ()
      | some level =>
        if ← isCandidate level then
          next
          more fuel
    | _ =>
      next
      more fuel

/-- The next token. -/
def peek : Fetch Token := do
  let s ← get
  if !s.ready then
    more s.cursor.bound
    modify fun s => { s with ready := true }
  let s ← get
  return s.queue.headD ⟨.streamEnd, s.cursor.line⟩

/-- Take the next token. -/
def take : Fetch Unit := modify fun s =>
  { s with queue := s.queue.tail, taken := s.taken + 1, ready := false }

end Fetch

end Stepwise.Yaml
