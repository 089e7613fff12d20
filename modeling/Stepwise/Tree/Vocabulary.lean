import Stepwise.Tree.Node

/-!
# The vocabulary

The vocabulary is closed.  Four *control* operators stand first in a form and say
how its operands are evaluated.  Five *leaves* stand as operands: three actions,
which cost a tick of the game, and two observations, which do not.  Every other
name means nothing.

`Op.ofName?` looks a name up, and `ofName?_name` says that it finds every
operator under its own name.
-/

namespace Stepwise

/-- What an operator does. -/
inductive Kind where
  /-- It controls the evaluation of operands. -/
  | control
  /-- It acts on the game. -/
  | action
  /-- It reads the game. -/
  | observation
deriving DecidableEq, Repr

namespace Kind

/-- The name of a kind. -/
def name : Kind → String
  | .control => "control"
  | .action => "action"
  | .observation => "observation"

/-- The name of the kind of a name that may be outside the vocabulary. -/
def nameOrUnknown : Option Kind → String
  | some k => k.name
  | none => "unknown"

/-- The kind with a given number.  Kinds are numbered from one. -/
def ofCode? : Int64 → Option Kind
  | 1 => some .control
  | 2 => some .action
  | 3 => some .observation
  | _ => none

end Kind

/-- An operator that heads a form. -/
inductive Control where
  /-- Evaluate the first operand, then the second if that is nonzero and the
  third if it is zero. -/
  | ifElse
  /-- Evaluate both operands and compare them. -/
  | eq
  /-- Evaluate two operands in order. -/
  | prog2
  /-- Evaluate three operands in order. -/
  | prog3
deriving DecidableEq, Repr

namespace Control

/-- The name of a control operator. -/
def name : Control → String
  | .ifElse => "if"
  | .eq => "eq"
  | .prog2 => "prog2"
  | .prog3 => "prog3"

/-- The number of operands of a control operator. -/
def arity : Control → Nat
  | .ifElse => 3
  | .eq => 2
  | .prog2 => 2
  | .prog3 => 3

end Control

/-- What the agent can do in one tick. -/
inductive Move where
  /-- One column to the left. -/
  | left
  /-- One column to the right. -/
  | right
  /-- Fire straight up. -/
  | shoot
deriving DecidableEq, Repr

/-- The name of a move. -/
def Move.name : Move → String
  | .left => "left"
  | .right => "right"
  | .shoot => "shoot"

/-- What the agent can read off the game. -/
inductive Sensor where
  /-- The horizontal distance. -/
  | distX
  /-- The vertical distance. -/
  | distY
deriving DecidableEq, Repr

/-- The name of a sensor. -/
def Sensor.name : Sensor → String
  | .distX => "dist-x"
  | .distY => "dist-y"

/-- A name that stands as an operand. -/
inductive Leaf where
  /-- Make a move. -/
  | move (m : Move)
  /-- Read a sensor. -/
  | sense (s : Sensor)
deriving DecidableEq, Repr

/-- The name of a leaf. -/
def Leaf.name : Leaf → String
  | .move m => m.name
  | .sense s => s.name

/-- The terminal with the name of a leaf. -/
def Leaf.node (l : Leaf) : Node := .terminal l.name

/-- An operator of the vocabulary. -/
inductive Op where
  /-- An operator that heads a form. -/
  | control (c : Control)
  /-- A name that stands as an operand. -/
  | leaf (l : Leaf)
deriving DecidableEq, Repr

namespace Op

/-- The name of an operator. -/
def name : Op → String
  | .control c => c.name
  | .leaf l => l.name

/-- The kind of an operator. -/
def kind : Op → Kind
  | .control _ => .control
  | .leaf (.move _) => .action
  | .leaf (.sense _) => .observation

/-- The number of operands of an operator.  A leaf has none. -/
def arity : Op → Nat
  | .control c => c.arity
  | .leaf _ => 0

/-- The whole vocabulary. -/
def all : List Op :=
  [.control .ifElse, .control .eq, .control .prog2, .control .prog3,
   .leaf (.move .left), .leaf (.move .right), .leaf (.move .shoot),
   .leaf (.sense .distX), .leaf (.sense .distY)]

/-- The operator with a given name. -/
def ofName? (name : String) : Option Op := all.find? fun op => op.name == name

/-- Every operator is found under its own name. -/
theorem ofName?_name (op : Op) : ofName? op.name = some op := by
  rcases op with (_ | _ | _ | _) | ((_ | _ | _) | (_ | _)) <;> decide

/-- An operator that is found has the name it was looked up by. -/
theorem name_of_ofName? {s : String} {op : Op} (h : ofName? s = some op) : op.name = s := by
  simpa using List.find?_some h

end Op

/-! ## Building forms -/

namespace Form

/-- The form of a control operator over given operands. -/
def ofControl (c : Control) (operands : List Node) : Form := .terminal c.name :: operands

/-- The form `(if cond yes no)`. -/
def ifElse (cond yes no : Node) : Form := ofControl .ifElse [cond, yes, no]

/-- The form `(eq a b)`. -/
def eq (a b : Node) : Form := ofControl .eq [a, b]

/-- The form `(prog2 a b)`. -/
def prog2 (a b : Node) : Form := ofControl .prog2 [a, b]

/-- The form `(prog3 a b c)`. -/
def prog3 (a b c : Node) : Form := ofControl .prog3 [a, b, c]

end Form

end Stepwise
