import Stepwise.Yaml.Scanner

/-!
# Documents

A document is a tree of scalars, sequences, mappings and references, each with the line
it begins in.  A text may hold several documents, and only the first is read.  What
comes after its root node is not looked at, except that reading always looks two
tokens ahead.  A text without any document is allowed too.

Where a node is left out, between a colon and the next key for instance, stands an
empty plain scalar.

A node may be named, and referred to by that name from there on, also inside the node
itself.  A name may be given again, and then it means the later node.  The nodes with
names are numbered, and a reference holds the number, so that a document stays finite.

Every reading function takes a number of calls it may nest.  `readDocument` starts
with more than the tokens of the text can use up.
-/

namespace Stepwise.Yaml

/-! ## Trees -/

/-- A node of a document.  A tag that is given replaces the one that a node has by its
form. -/
inductive Tree where
  /-- A scalar. -/
  | scalar (line : Nat) (tag? : Option String) (s : Scalar)
  /-- A sequence with its items. -/
  | sequence (line : Nat) (tag? : Option String) (items : List Tree)
  /-- A mapping with its keys and values, in order. -/
  | mapping (line : Nat) (tag? : Option String) (entries : List (Tree × Tree))
  /-- A reference to the node of a given number.  The references are numbered too. -/
  | reference (line : Nat) (name : String) (number target : Nat)

namespace Tree

/-- The line a node begins in. -/
def line : Tree → Nat
  | .scalar n .. | .sequence n .. | .mapping n .. | .reference n .. => n

/-- What stands for a node that is left out. -/
def empty (line : Nat) : Tree := .scalar line none ⟨"", true⟩

/-- Is this a mapping? -/
def isMapping : Tree → Bool
  | .mapping .. => true
  | _ => false

end Tree

/-- A document. -/
structure Document where
  /-- The root. -/
  root : Tree
  /-- The nodes that have names, with their numbers. -/
  named : List (Nat × Tree)

/-- The node that a reference stands for, or the node itself. -/
def Document.resolve (d : Document) (t : Tree) : Tree :=
  match t with
  | .reference line _ _ target => (d.named.lookup target).getD (.empty line)
  | t => t

/-! ## Reading -/

/-- A document that is being read. -/
structure Draft where
  /-- The rest of the text. -/
  scanner : Scanner
  /-- What the handles of tags stand for. -/
  handles : List (String × String) := []
  /-- The names given so far and the numbers of their nodes, the last one first. -/
  names : List (String × Nat) := []
  /-- The number of names given so far. -/
  nameCount : Nat := 0
  /-- The number of references so far. -/
  referenceCount : Nat := 0
  /-- The nodes with names that are complete. -/
  named : List (Nat × Tree) := []

/-- Reading makes a draft until it fails. -/
abbrev Reader := StateT Draft (Except SyntaxError)

namespace Reader

/-- Fetch tokens. -/
def onTokens {α : Type} (x : Fetch α) : Reader α := fun d =>
  match x d.scanner with
  | .ok (a, scanner) => .ok (a, { d with scanner })
  | .error e => .error e

/-- The next token. -/
def peek : Reader Token := onTokens Fetch.peek

/-- Go on to the token after the next one. -/
def skip : Reader Unit := onTokens Fetch.take

/-- Fail at a token, in a node that began in the line `start`. -/
def fail {α : Type} (start : Nat) (t : Token) (f : Fault) : Reader α :=
  throw (.ofToken start t.line f)

/-- Fail when the calls are used up. -/
def exhausted {α : Type} : Reader α := throw (.ofDocument .node)

end Reader

open Reader (peek skip fail exhausted)

/-- Where a node stands. -/
inductive Site where
  /-- Inside brackets. -/
  | flow
  /-- In a block. -/
  | block
  /-- As a key or a value of a block mapping, where the dashes of a sequence need not
  be indented. -/
  | entry
deriving DecidableEq

/-! ## Names and tags -/

/-- What stands in front of a node. -/
structure Properties where
  /-- The line of the first of them, or of the node. -/
  line : Nat
  /-- The name. -/
  name? : Option String := none
  /-- The tag as it is written. -/
  tag? : Option TagName := none

/-- Read a name, if there is one. -/
def readName (props : Properties) : Reader Properties := do
  match (← peek).mark with
  | .name n =>
    skip
    pure { props with name? := some n }
  | _ => pure props

/-- Read a tag, if there is one. -/
def readTag (props : Properties) : Reader Properties := do
  match (← peek).mark with
  | .tag t =>
    skip
    pure { props with tag? := some t }
  | _ => pure props

/-- Read the name and the tag of a node, in any order. -/
def readProperties : Reader Properties := do
  let t ← peek
  match t.mark with
  | .name _ => readTag (← readName { line := t.line })
  | _ => readName (← readTag { line := t.line })

/-- The beginning of the tags that are part of the notation. -/
def standardPrefix : String := "tag:yaml.org,2002:"

/-- The short form of a tag. -/
def shortForm (tag : String) : String :=
  if standardPrefix.toList.isPrefixOf tag.toList then
    "!!" ++ String.ofList (tag.toList.drop standardPrefix.length)
  else tag

/-- The tag that a written tag stands for. -/
def expandTag (props : Properties) (t : TagName) : Reader String := do
  if t.handle = "" then pure t.suffix
  else match (← get).handles.lookup t.handle with
    | some front => pure (front ++ t.suffix)
    | none => throw (.ofToken props.line props.line .handle)

/-- Give a node a number if it has a name. -/
def register (name? : Option String) : Reader (Option Nat) := do
  match name? with
  | none => pure none
  | some name =>
    let d ← get
    set { d with names := (name, d.nameCount) :: d.names, nameCount := d.nameCount + 1 }
    pure (some d.nameCount)

/-- Note that a node is complete. -/
def complete (number? : Option Nat) (t : Tree) : Reader Tree := do
  match number? with
  | none => pure ()
  | some n => modify fun d => { d with named := (n, t) :: d.named }
  pure t

/-- Make a reference to a name. -/
def refer (line : Nat) (name : String) : Reader Tree := do
  let d ← get
  match d.names.lookup name with
  | none => throw (.ofDocument (.reference name))
  | some target =>
    set { d with referenceCount := d.referenceCount + 1 }
    pure (.reference line name d.referenceCount target)

/-! ## Nodes -/

mutual

/-- Read a node. -/
def readNode : Nat → Site → Reader Tree
  | 0, _ => exhausted
  | fuel + 1, site => do
    let t ← peek
    match t.mark with
    | .reference name =>
      skip
      refer t.line name
    | _ => readContent fuel site (← readProperties)

/-- Read a node behind its name and tag. -/
def readContent : Nat → Site → Properties → Reader Tree
  | 0, _, _ => exhausted
  | fuel + 1, site, props => do
    let t ← peek
    let written? ← props.tag?.mapM (expandTag props)
    let tag? := (written?.filter (· ≠ "!")).map shortForm
    let number? ← register props.name?
    match t.mark with
    | .scalar s =>
      skip
      complete number? (.scalar props.line tag? s)
    | .openSequence =>
      skip
      complete number? (.sequence props.line tag? (← readItems fuel t.line true))
    | .openMapping =>
      skip
      complete number? (.mapping props.line tag? (← readPairs fuel t.line true))
    | mark =>
      if mark = .entry && site = .entry then
        complete number? (.sequence props.line tag? (← readLooseItems fuel))
      else if mark = .blockSequence && site ≠ .flow then
        skip
        complete number? (.sequence props.line tag? (← readBlockItems fuel t.line))
      else if mark = .blockMapping && site ≠ .flow then
        skip
        complete number? (.mapping props.line tag? (← readBlockPairs fuel t.line))
      else if number?.isSome || written?.isSome then
        complete number? (.scalar props.line tag? ⟨"", true⟩)
      else fail props.line t .node

/-- Read a node, unless a token with one of the given marks comes first.  Then there is an
empty one in the given line. -/
def readOptional : Nat → Site → Nat → List Mark → Reader Tree
  | 0, _, _, _ => exhausted
  | fuel + 1, site, line, marks => do
    if marks.contains (← peek).mark then pure (.empty line) else readNode fuel site

/-- Read a value behind its colon.  Without a colon it is left out. -/
def readValue : Nat → Site → List Mark → Reader Tree
  | 0, _, _ => exhausted
  | fuel + 1, site, marks => do
    let t ← peek
    if t.mark = .value then
      skip
      readOptional fuel site t.line marks
    else pure (.empty t.line)

/-- Read the items of a block sequence up to its end. -/
def readBlockItems : Nat → Nat → Reader (List Tree)
  | 0, _ => exhausted
  | fuel + 1, start => do
    let t ← peek
    match t.mark with
    | .entry =>
      skip
      let item ← readOptional fuel .block t.line [.entry, .blockEnd]
      return item :: (← readBlockItems fuel start)
    | .blockEnd =>
      skip
      pure []
    | _ => fail start t .blockSequence

/-- Read the items of a block sequence that is not indented. -/
def readLooseItems : Nat → Reader (List Tree)
  | 0 => exhausted
  | fuel + 1 => do
    let t ← peek
    if t.mark = .entry then
      skip
      let item ← readOptional fuel .block t.line [.entry, .key, .value, .blockEnd]
      return item :: (← readLooseItems fuel)
    else pure []

/-- Read the keys and values of a block mapping up to its end. -/
def readBlockPairs : Nat → Nat → Reader (List (Tree × Tree))
  | 0, _ => exhausted
  | fuel + 1, start => do
    let t ← peek
    match t.mark with
    | .key =>
      skip
      let key ← readOptional fuel .entry t.line [.key, .value, .blockEnd]
      let value ← readValue fuel .entry [.key, .value, .blockEnd]
      return (key, value) :: (← readBlockPairs fuel start)
    | .blockEnd =>
      skip
      pure []
    | _ => fail start t .blockMapping

/-- Read the items of a sequence in brackets, after a comma unless they are the first.
An item may be a single key and value without braces.  If its key is left out, the next
token is lost. -/
def readItems : Nat → Nat → Bool → Reader (List Tree)
  | 0, _, _ => exhausted
  | fuel + 1, start, first => do
    let t ← peek
    if t.mark = .closeSequence then
      skip
      pure []
    else
      if !first then
        if t.mark = .comma then skip else fail start t .flowSequence
      let t ← peek
      match t.mark with
      | .closeSequence =>
        skip
        pure []
      | .key =>
        skip
        let k ← peek
        let key ←
          if [Mark.value, .comma, .closeSequence].contains k.mark then do
            skip
            pure (Tree.empty k.line)
          else readNode fuel .flow
        let value ← readValue fuel .flow [.comma, .closeSequence]
        let _ ← peek
        return .mapping t.line none [(key, value)] :: (← readItems fuel start false)
      | _ =>
        let item ← readNode fuel .flow
        return item :: (← readItems fuel start false)

/-- Read the keys and values of a mapping in braces, after a comma unless they are the
first.  A value may be left out together with its colon. -/
def readPairs : Nat → Nat → Bool → Reader (List (Tree × Tree))
  | 0, _, _ => exhausted
  | fuel + 1, start, first => do
    let t ← peek
    if t.mark = .closeMapping then
      skip
      pure []
    else
      if !first then
        if t.mark = .comma then skip else fail start t .flowMapping
      let t ← peek
      match t.mark with
      | .closeMapping =>
        skip
        pure []
      | .key =>
        skip
        let k ← peek
        let key ← readOptional fuel .flow k.line [.value, .comma, .closeMapping]
        let value ← readValue fuel .flow [.comma, .closeMapping]
        return (key, value) :: (← readPairs fuel start false)
      | _ =>
        let key ← readNode fuel .flow
        let after ← peek
        return (key, .empty after.line) :: (← readPairs fuel start false)

end

/-! ## Documents -/

/-- What handles stand for unless a directive says otherwise. -/
def standardHandles : List (String × String) := [("!", "!"), ("!!", standardPrefix)]

/-- Read directives.  `versioned` says whether there was a version before. -/
def readDirectives : Nat → Bool → Reader Unit
  | 0, _ => exhausted
  | fuel + 1, versioned => do
    let t ← peek
    match t.mark with
    | .directive (.version major minor) =>
      if versioned then fail 1 t .versionTwice
      else if major ≠ 1 || minor ≠ 1 then fail 1 t .version
      else
        skip
        readDirectives fuel true
    | .directive (.handle handle meaning) =>
      if ((← get).handles.lookup handle).isSome then fail 1 t .handleTwice
      else
        modify fun d => { d with handles := d.handles ++ [(handle, meaning)] }
        skip
        readDirectives fuel versioned
    | _ => modify fun d => { d with handles := d.handles ++ standardHandles }

/-- Read the first document, if there is one. -/
def readFirst (fuel : Nat) : Reader (Option Tree) := do
  let _ ← peek
  skip
  let t ← peek
  match t.mark with
  | .streamEnd => pure none
  | mark =>
    readDirectives fuel false
    let root ←
      if mark.isDirective || mark = .documentStart then do
        let t ← peek
        if t.mark ≠ .documentStart then fail 1 t .documentStart
        else
          skip
          let t ← peek
          if t.mark.isDirective then pure (Tree.empty t.line)
          else readOptional fuel .block t.line [.documentStart, .documentEnd, .streamEnd]
      else readNode fuel .block
    let _ ← peek
    pure (some root)

/-- Read the first document of a text, if there is one. -/
def readDocument (text : String) : Except SyntaxError (Option Document) :=
  let cursor := Cursor.start text
  match (readFirst (16 * cursor.bound)).run { scanner := { cursor } } with
  | .error e => .error e
  | .ok (none, _) => .ok none
  | .ok (some root, d) => .ok (some ⟨root, d.named⟩)

end Stepwise.Yaml
