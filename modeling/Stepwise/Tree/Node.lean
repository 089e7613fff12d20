/-!
# Program trees

A program is a tree.  Its leaves are *terminals*, which name an action, an
observation or an operator.  Its inner nodes are *forms*: a list of children whose
first child stands in operator position and whose other children are operands.
Trees come from outside and need not make sense.  A form may be empty, its first
child may be another form, and a child may be *missing* altogether.  Which trees
are programs is said in `Stepwise.Tree.Validation`.

`Node.spell n rest` is the one-line text of `n` written in front of `rest`, so
that a whole text is spelled without copying any part of it twice.  `Node.text` is
the case of an empty rest.  As part of a longer text, such as that of an error, a form
with a missing node in it is not written, and a note stands in its place
(`Node.shown`).

`Node.same` compares two trees child by child, and `same_eq_true` says that it
decides equality.
-/

namespace Stepwise

/-- A node of a program tree. -/
inductive Node where
  /-- A child that is not there. -/
  | missing
  /-- A leaf with its name. -/
  | terminal (name : String)
  /-- An inner node with its children, the operator first. -/
  | form (children : List Node)
deriving Inhabited

/-- The children of an inner node, the operator first. -/
abbrev Form := List Node

namespace Form

/-- The name in operator position, if a terminal stands there. -/
def operator? : Form → Option String
  | .terminal name :: _ => some name
  | _ => none

/-- The children after the operator. -/
def operands (a : Form) : List Node := a.tail

/-- The operand with number `k`, counted from one. -/
def operand? (a : Form) (k : Nat) : Option Node := a[k]?

/-- The number of operands.  A form without children has none. -/
def operandCount (a : Form) : Nat := a.operands.length

end Form

namespace Node

/-- The children of an inner node. -/
def form? : Node → Option Form
  | .form children => some children
  | _ => none

/-! ## Measures -/

mutual

/-- One more than the greatest depth of the children. -/
def depth : Node → Nat
  | .missing => 1
  | .terminal _ => 1
  | .form children => 1 + maxDepth children

/-- The greatest depth in a list of nodes. -/
def maxDepth : List Node → Nat
  | [] => 0
  | n :: ns => max (depth n) (maxDepth ns)

end

mutual

/-- The number of nodes of a tree, a missing child included. -/
def nodeCount : Node → Nat
  | .missing => 1
  | .terminal _ => 1
  | .form children => 1 + nodeCountAll children

/-- The number of nodes of all trees of a list. -/
def nodeCountAll : List Node → Nat
  | [] => 0
  | n :: ns => nodeCount n + nodeCountAll ns

end

mutual

/-- The number of forms in a tree. -/
def formCount : Node → Nat
  | .missing => 0
  | .terminal _ => 0
  | .form children => 1 + formCountAll children

/-- The number of forms in all trees of a list. -/
def formCountAll : List Node → Nat
  | [] => 0
  | n :: ns => formCount n + formCountAll ns

end

mutual

/-- Is some node of the tree missing? -/
def hasMissing : Node → Bool
  | .missing => true
  | .terminal _ => false
  | .form children => anyMissing children

/-- Is some node of the trees of a list missing? -/
def anyMissing : List Node → Bool
  | [] => false
  | n :: ns => hasMissing n || anyMissing ns

end

theorem nodeCount_pos : (n : Node) → 0 < n.nodeCount
  | .missing => by rw [nodeCount]; exact Nat.one_pos
  | .terminal _ => by rw [nodeCount]; exact Nat.one_pos
  | .form _ => by rw [nodeCount]; exact Nat.add_pos_left Nat.one_pos _

/-! ## The one-line text -/

mutual

/-- The text of a node in front of `rest`.  A form is written between round
brackets, its children separated by one space. -/
def spell : Node → List Char → List Char
  | .missing, rest => "<nil>".toList ++ rest
  | .terminal name, rest => name.toList ++ rest
  | .form [], rest => '(' :: ')' :: rest
  | .form (n :: ns), rest => '(' :: spell n (spellTail ns (')' :: rest))

/-- The texts of the later children of a form, each after a space. -/
def spellTail : List Node → List Char → List Char
  | [], rest => rest
  | n :: ns, rest => ' ' :: spell n (spellTail ns rest)

end

/-- The one-line text of a node. -/
def text (n : Node) : String := String.ofList (n.spell [])

/-- What is shown in place of a form that cannot be written, since a child of it or of a
form inside it is missing. -/
def unwritable : String :=
  "%!s(PANIC=String method: runtime error: invalid memory address or nil pointer dereference)"

/-- How a node is shown as part of a longer text. -/
def shown : Node → String
  | .form children => if anyMissing children then unwritable else (Node.form children).text
  | n => n.text

/-! ## Equality -/

mutual

/-- Are two trees the same, name by name and child by child? -/
def same : Node → Node → Bool
  | .missing, .missing => true
  | .terminal a, .terminal b => a == b
  | .form as, .form bs => sameAll as bs
  | _, _ => false

/-- Are two lists of trees the same? -/
def sameAll : List Node → List Node → Bool
  | [], [] => true
  | a :: as, b :: bs => same a b && sameAll as bs
  | _, _ => false

end

mutual

/-- The comparison decides equality of trees. -/
theorem same_eq_true : (a b : Node) → (same a b = true ↔ a = b)
  | .missing, b => by cases b <;> simp [same]
  | .terminal _, b => by cases b <;> simp [same]
  | .form as, b => by
      cases b with
      | missing => simp [same]
      | terminal => simp [same]
      | form bs => simp [same, sameAll_eq_true as bs]

/-- The comparison decides equality of lists of trees. -/
theorem sameAll_eq_true : (as bs : List Node) → (sameAll as bs = true ↔ as = bs)
  | [], bs => by cases bs <;> simp [sameAll]
  | a :: as, bs => by
      cases bs with
      | nil => simp [sameAll]
      | cons b bs => simp [sameAll, same_eq_true a b, sameAll_eq_true as bs]

end

instance : DecidableEq Node := fun a b =>
  decidable_of_iff (same a b = true) (same_eq_true a b)

end Node

/-- The one-line text of a form. -/
def Form.text (a : Form) : String := (Node.form a).text

example : Form.text [] = "()" := by decide +kernel
example : Form.text [.terminal "eq", .terminal "left", .form []] = "(eq left ())" := by
  decide +kernel

end Stepwise
