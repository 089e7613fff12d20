import Stepwise.Settings.Basic
import Stepwise.Settings.Problem

/-!
# Settings documents

Settings are read from a document on top of the standard settings.  The document is a
mapping from the names of the settings to their values, with the board as a mapping
inside it.  What is left out or null keeps its standard value.  A document that is
empty changes nothing.

Numbers are whole.  A fraction is taken too, and loses its fractional part.  If its
whole part does not fit into 64 bits, it is read as the least number, unless it is too
large, which is a problem.  A text setting takes any scalar, as it is written.

A mapping with a repeated key is reported for that and otherwise not looked at.

Under the merge key a mapping names another mapping, or a sequence of them, whose
fields are taken over unless it has them itself.  Of several mappings the first that
has a field counts.  Merging comes after everything else in a mapping.

References stand for the nodes they refer to.  To follow a reference from inside itself
is a fault, and so is a document that consists almost only of repetitions.

The log level is checked once everything else fits.
-/

namespace Stepwise

namespace Settings

/-- The name that the top level has in reports. -/
def topName : String := "tickeval.Config"

/-- The name that the board has in reports. -/
def boardName : String := "invaders.Config"

/-- Why a settings document is refused. -/
inductive Error where
  /-- It is no document. -/
  | unreadable (e : Yaml.SyntaxError)
  /-- It merges into a mapping that has a collection among its keys. -/
  | unmergeable
  /-- It does not fit the settings. -/
  | problems (ps : List Problem)
  /-- The log level is none. -/
  | level (text : String) (e : Log.LevelError)
deriving DecidableEq

/-- The wording of a refusal. -/
def Error.message : Error → String
  | .unreadable e => "decoding config: " ++ e.message
  | .unmergeable => "decoding config: a collection is no key"
  | .problems ps => "decoding config: " ++ Problem.report ps
  | .level text e => e.message text

/-! ## Decoding -/

/-- What is known while a document is decoded. -/
structure Progress where
  /-- The problems met so far, the last one first. -/
  problems : List Problem := []
  /-- The number of nodes visited. -/
  visits : Nat := 1
  /-- The number of those that were reached through references. -/
  borrowed : Nat := 0
  /-- The numbers of the references that are being followed. -/
  following : List Nat := []
  /-- While mappings are merged into a group, the keys that count already. -/
  merged? : Option (List String) := none

/-- Decoding goes through the nodes of a document until it fails. -/
abbrev Decode := ReaderT Yaml.Document (StateT Progress (Except Error))

/-- Is too much of what was visited reached through references?  Of up to 400000 nodes at
most 99 in a hundred may be, of 4000000 and more at most ten, and in between the limit
goes down evenly. -/
def isExcessive (visits borrowed : Nat) : Bool :=
  100 < borrowed && 1000 < visits &&
    if visits ≤ 400000 then 99 * visits < 100 * borrowed
    else if 4000000 ≤ visits then visits < 10 * borrowed
    else visits * (99 * 3600000 - 89 * (visits - 400000)) < borrowed * 100 * 3600000

namespace Decode

/-- Fail for a fault of the whole document. -/
def fail {α : Type} (f : Yaml.Fault) : Decode α := throw (.unreadable (.ofDocument f))

/-- Report problems. -/
def report (ps : List Problem) : Decode Unit :=
  modify fun p => { p with problems := ps.reverse ++ p.problems }

/-- Count a node. -/
def tally : Decode Unit := do
  let p ← get
  let visits := p.visits + 1
  let borrowed := if p.following.isEmpty then p.borrowed else p.borrowed + 1
  if isExcessive visits borrowed then fail .aliasing
  else set { p with visits, borrowed }

/-- Visit a node, or the one that a reference stands for. -/
def visit {α : Type} (t : Yaml.Tree) (use : Yaml.Tree → Decode α) : Decode α := do
  tally
  match t with
  | .reference _ name number _ =>
    if (← get).following.contains number then fail (.selfReference name)
    else
      modify fun p => { p with following := number :: p.following }
      tally
      let a ← use ((← read).resolve t)
      modify fun p => { p with following := p.following.tail }
      pure a
  | t => use t

/-- The meaning of a scalar. -/
def meaning (tag? : Option String) (s : Yaml.Scalar) : Decode Yaml.Meaning :=
  match s.meaning tag? with
  | .ok m => pure m
  | .error f => fail f

end Decode

open Decode (fail report visit meaning)

/-! ## Values -/

/-- The number that a scalar stands for. -/
def number? : Yaml.Meaning → Option Int64
  | .int n => if n ≤ Int64.maxValue.toInt then some (Int64.ofInt n) else none
  | .float n =>
    if n ≤ Int64.maxValue.toInt + 1 then
      some (if Int64.minValue.toInt ≤ n && n ≤ Int64.maxValue.toInt then Int64.ofInt n
        else Int64.minValue)
    else none
  | .infinity true => some Int64.minValue
  | _ => none

/-- The problems with a mapping where none fits. -/
def mappingProblems (line : Nat) (tag? : Option String) (entries : List (Yaml.Tree × Yaml.Tree))
    (target : String) : List Problem :=
  match Problem.duplicates entries with
  | [] => [Problem.wrongMapping line tag? target]
  | ps => ps

/-- Read a number on top of the value `old`. -/
def readNumber (target : String) (old : Int64) : Yaml.Tree → Decode Int64
  | .scalar line tag? s => do
    match ← meaning tag? s with
    | .null => pure old
    | m =>
      match number? m with
      | some n => pure n
      | none =>
        report [Problem.wrongScalar line tag? s target]
        pure old
  | .sequence line tag? _ => do
    report [Problem.wrongSequence line tag? target]
    pure old
  | .mapping line tag? entries => do
    report (mappingProblems line tag? entries target)
    pure old
  | .reference .. => pure old

/-- Read a text, if there is one. -/
def readText : Yaml.Tree → Decode (Option String)
  | .scalar _ tag? s => do
    match ← meaning tag? s with
    | .null => pure none
    | .text text => pure (some text)
    | _ => pure (some s.text)
  | .sequence line tag? _ => do
    report [Problem.wrongSequence line tag? "string"]
    pure none
  | .mapping line tag? entries => do
    report (mappingProblems line tag? entries "string")
    pure none
  | .reference .. => pure none

/-! ## Groups -/

/-- A group of settings. -/
structure Group (α : Type) where
  /-- The name that the group has in reports. -/
  name : String
  /-- How the value of a field is read, if there is such a field. -/
  field : String → Option (α → Yaml.Tree → Decode α)

/-- A group that is being read. -/
structure Filling (α : Type) where
  /-- The settings so far. -/
  value : α
  /-- The fields that have been read. -/
  done : List String := []
  /-- While this mapping is merged into another, the keys that count already. -/
  merged? : Option (List String)
  /-- What is to be merged. -/
  merge? : Option Yaml.Tree := none

/-- Is this the key under which mappings are merged? -/
def isMergeKey : Yaml.Tree → Bool
  | .scalar _ tag? s => s.isMergeKey tag?
  | _ => false

/-- Read one field of a group. -/
def readField {α : Type} (g : Group α) (f : Filling α) (key value : Yaml.Tree) (name : String) :
    Decode (Filling α) :=
  match g.field name with
  | none => do
    report [.unknownField key.line name g.name]
    pure f
  | some read =>
    if f.done.contains name then do
      report [.repeatedField key.line name g.name]
      pure f
    else do
      let v ← visit value (read f.value)
      pure { f with value := v, done := name :: f.done }

/-- Read one entry of a group. -/
def readEntry {α : Type} (g : Group α) (f : Filling α) :
    Yaml.Tree × Yaml.Tree → Decode (Filling α)
  | (key, value) => do
    if isMergeKey key then pure { f with merge? := some value }
    else match ← visit key readText with
      | none => pure f
      | some name =>
        match f.merged? with
        | none => readField g f key value name
        | some merged =>
          if merged.contains name then pure f
          else readField g { f with merged? := some (name :: merged) } key value name

/-- The text that a key stands for, if it is one. -/
def keyText? : Yaml.Tree → Decode (Option String)
  | .scalar _ tag? s => do
    match ← meaning tag? s with
    | .text text => pure (some text)
    | _ => pure none
  | .mapping _ _ entries =>
    match Problem.duplicates entries with
    | [] => throw .unmergeable
    | ps => do
      report ps
      pure none
  | _ => throw .unmergeable

/-- The keys of a mapping that count before what is merged into it. -/
def ownKeys (entries : List (Yaml.Tree × Yaml.Tree)) : Decode (List String) :=
  entries.filterMapM fun (key, _) => visit key keyText?

/-- The mappings that are merged. -/
def sources (d : Yaml.Document) (t : Yaml.Tree) : Option (List Yaml.Tree) :=
  let fits (t : Yaml.Tree) : Bool := (d.resolve t).isMapping
  match t with
  | .sequence _ _ items => if items.all fits then some items else none
  | t => if fits t then some [t] else none

/-- Read a group of settings on top of `old`.  `depth` bounds the merging of mappings into
one another. -/
def readGroup {α : Type} (g : Group α) : (depth : Nat) → (old : α) → Yaml.Tree → Decode α
  | 0, _, _ => fail .aliasing
  | depth + 1, old, t =>
    match t with
    | .scalar line tag? s => do
      if (← meaning tag? s) ≠ .null then report [Problem.wrongScalar line tag? s g.name]
      pure old
    | .sequence line tag? _ => do
      report [Problem.wrongSequence line tag? g.name]
      pure old
    | .reference .. => pure old
    | .mapping _ _ entries =>
      match Problem.duplicates entries with
      | [] => do
        let merged? := (← get).merged?
        modify fun p => { p with merged? := none }
        let f ← entries.foldlM (readEntry g) { value := old, merged? }
        modify fun p => { p with merged? := f.merged? }
        match f.merge? with
        | none => pure f.value
        | some t => do
          if merged?.isNone then
            let keys ← ownKeys entries
            modify fun p => { p with merged? := some keys }
          match sources (← read) t with
          | none => fail .merge
          | some ts => do
            let value ← ts.foldlM (fun v t => visit t (readGroup g depth v)) f.value
            if merged?.isNone then modify fun p => { p with merged? := none }
            pure value
      | ps => do
        report ps
        pure old

/-- Read a number into a field. -/
def numberField {α : Type} (target : String) (get : α → Int64) (set : α → Int64 → α) (old : α)
    (value : Yaml.Tree) : Decode α :=
  set old <$> readNumber target (get old) value

/-- The board. -/
def boardGroup : Group Board where
  name := boardName
  field
    | "width" => some (numberField "int" Board.width fun b n => { b with width := n })
    | "height" => some (numberField "int" Board.height fun b n => { b with height := n })
    | "descend_every" =>
      some (numberField "int" Board.descendEvery fun b n => { b with descendEvery := n })
    | "max_ticks" => some (numberField "int" Board.maxTicks fun b n => { b with maxTicks := n })
    | "seed" => some (numberField "int64" Board.seed fun b n => { b with seed := n })
    | _ => none

/-- The top level. -/
def topGroup (depth : Nat) : Group Settings where
  name := topName
  field
    | "game" => some fun s value => do
      let game ← readGroup boardGroup depth s.game value
      pure { s with game }
    | "max_steps" =>
      some (numberField "int" Settings.maxSteps fun s n => { s with maxSteps := n })
    | "concurrency" =>
      some (numberField "int" Settings.concurrency fun s n => { s with concurrency := n })
    | "log_level" => some fun s value => do
      let text? ← readText value
      pure { s with logLevel := text?.getD s.logLevel }
    | _ => none

/-- Read a document on top of the standard settings. -/
def ofDocument (depth : Nat) (d : Yaml.Document) : Except Error Settings :=
  match ((visit d.root (readGroup (topGroup depth) depth standard)).run d).run {} with
  | .error e => .error e
  | .ok (s, p) => if p.problems.isEmpty then .ok s else .error (.problems p.problems.reverse)

/-! ## Texts -/

/-- Check the log level of settings. -/
def checkLevel (s : Settings) : Except Error Log.Level :=
  match s.level with
  | .error e => .error (.level s.logLevel e)
  | .ok l => .ok l

/-- How deep mappings can be merged into one another in a text.  Every level needs a node of
its own, and each reference is followed once at most. -/
def mergeDepth (text : String) : Nat := (text.length + 2) * (text.length + 2)

/-- Read settings from a text. -/
def parse (text : String) : Except Error Settings := do
  let s ← match Yaml.readDocument text with
    | .error e => .error (.unreadable e)
    | .ok none => .ok standard
    | .ok (some d) => ofDocument (mergeDepth text) d
  let _ ← checkLevel s
  return s

/-! A mapping counts before what is merged into it, an earlier source before a later one,
and a reference as much as the node itself. -/

example : (parse "max_steps: 1\n<<: \x7bmax_steps: 5\x7d").toOption.map maxSteps = some 1 := by
  decide +kernel
example : (parse "<<: [\x7bmax_steps: 5\x7d, \x7bmax_steps: 6\x7d]").toOption.map maxSteps
    = some 5 := by decide +kernel
example : (parse "max_steps: &n 7\nconcurrency: *n").toOption.map concurrency = some 7 := by
  decide +kernel
example : (parse "<<: 3").toOption = none := by decide +kernel

end Settings

end Stepwise
