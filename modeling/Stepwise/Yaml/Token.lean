import Stepwise.Yaml.Block
import Stepwise.Yaml.Property

/-!
# Tokens

A document is cut into tokens before it is read.  Brackets, commas and scalars are
tokens of their own.  Block collections have no brackets: their extent shows in the
indentation, and tokens for their start and end are put in where it changes.
-/

namespace Stepwise.Yaml

/-- What a token is. -/
inductive Mark where
  /-- The start of the text. -/
  | streamStart
  /-- The end of the text. -/
  | streamEnd
  /-- A directive. -/
  | directive (d : Directive)
  /-- Three dashes, which begin a document. -/
  | documentStart
  /-- Three dots, which end a document. -/
  | documentEnd
  /-- A block sequence begins. -/
  | blockSequence
  /-- A block mapping begins. -/
  | blockMapping
  /-- A block collection ends. -/
  | blockEnd
  /-- An opening square bracket. -/
  | openSequence
  /-- A closing square bracket. -/
  | closeSequence
  /-- An opening brace. -/
  | openMapping
  /-- A closing brace. -/
  | closeMapping
  /-- A comma. -/
  | comma
  /-- The dash of a sequence entry. -/
  | entry
  /-- What follows is a key. -/
  | key
  /-- What follows is a value. -/
  | value
  /-- A reference to a named node. -/
  | reference (name : String)
  /-- The name of the node that follows. -/
  | name (name : String)
  /-- The tag of the node that follows. -/
  | tag (t : TagName)
  /-- A scalar. -/
  | scalar (s : Scalar)
deriving DecidableEq

/-- A token and the line it begins in. -/
structure Token where
  /-- What it is. -/
  mark : Mark
  /-- The line, counted from one. -/
  line : Nat
deriving DecidableEq

/-- Does this token stand in front of a document? -/
def Mark.isDirective : Mark → Bool
  | .directive _ => true
  | _ => false

end Stepwise.Yaml
