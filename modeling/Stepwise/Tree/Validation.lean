import Stepwise.Tree.Malformed

/-!
# Validation

A tree is a *program* when its root is a form, every form starts with a control
operator and has that operator's number of operands, and every operand is a form
or a terminal that names a leaf.

`validate` walks the tree with a list of forms still to be checked, the next one
first.  A form is checked completely before anything below it: its operator, its
arity, then its operands from left to right.  Then its operands that are forms are
put in front of the list, the rightmost first.  So with several defects in one
tree the walk reports the one that is found first in this order.

`Node.firstDefect` is the same search as a plain recursion over the tree, and
`Program` is the language of valid programs as an inductive predicate.
-/

namespace Stepwise

namespace Form

/-- The operands that are forms, in order. -/
def subforms (a : Form) : List Form := a.operands.filterMap Node.form?

/-- Check one operand, with its number `k`.  What is inside a form is checked later. -/
def checkOperand (a : Form) (k : Nat) : Node → Except Malformed Unit
  | .missing => .error (a.refuse (.operandMissing k))
  | .terminal name => (leafNamed name).map fun _ => ()
  | .form _ => .ok ()

/-- Check operands from left to right, the first with number `k`. -/
def checkOperands (a : Form) : Nat → List Node → Except Malformed Unit
  | _, [] => .ok ()
  | k, n :: ns =>
    match a.checkOperand k n with
    | .error e => .error e
    | .ok () => checkOperands a (k + 1) ns

/-- Check the operator, the arity and the operands of one form. -/
def check (a : Form) : Except Malformed Unit :=
  match a.control with
  | .error e => .error e
  | .ok c =>
    if a.operandCount = c.arity then a.checkOperands 1 a.operands
    else .error (a.refuse (.arity c a.operandCount))

/-- The number of nodes in a list of forms. -/
def totalNodes : List Form → Nat
  | [] => 0
  | a :: work => (Node.form a).nodeCount + totalNodes work

theorem totalNodes_append (as bs : List Form) :
    totalNodes (as ++ bs) = totalNodes as + totalNodes bs := by
  induction as with
  | nil => exact (Nat.zero_add _).symm
  | cons a as ih => rw [List.cons_append, totalNodes, totalNodes, ih, Nat.add_assoc]

theorem totalNodes_reverse (as : List Form) : totalNodes as.reverse = totalNodes as := by
  induction as with
  | nil => rfl
  | cons a as ih =>
    rw [List.reverse_cons, totalNodes_append, ih, totalNodes, totalNodes, totalNodes,
      Nat.add_zero, Nat.add_comm]

theorem totalNodes_filterMap_form? (ns : List Node) :
    totalNodes (ns.filterMap Node.form?) ≤ Node.nodeCountAll ns := by
  induction ns with
  | nil => exact Nat.le_refl _
  | cons n ns ih =>
    rw [List.filterMap_cons, Node.nodeCountAll]
    cases n with
    | missing => exact Nat.le_trans ih (Nat.le_add_left _ _)
    | terminal name => exact Nat.le_trans ih (Nat.le_add_left _ _)
    | form a => exact Nat.add_le_add_left ih _

/-- The forms directly below a form have fewer nodes together than it has. -/
theorem totalNodes_subforms_lt (a : Form) : totalNodes a.subforms < (Node.form a).nodeCount := by
  have h := totalNodes_filterMap_form? a.operands
  rw [Node.nodeCount]
  cases a with
  | nil => exact Nat.add_pos_left Nat.one_pos _
  | cons n ns =>
    rw [Node.nodeCountAll]
    exact Nat.lt_of_le_of_lt h (by
      show Node.nodeCountAll ns < 1 + (n.nodeCount + Node.nodeCountAll ns)
      omega)

end Form

/-- Check the forms of a work list and everything below them. -/
def validateAll : List Form → Except Malformed Unit
  | [] => .ok ()
  | a :: work =>
    match a.check with
    | .error e => .error e
    | .ok () => validateAll (a.subforms.reverse ++ work)
termination_by work => Form.totalNodes work
decreasing_by
  have h := Form.totalNodes_subforms_lt a
  rw [Form.totalNodes_append, Form.totalNodes_reverse]
  rw [Form.totalNodes]
  omega

/-- Is this form a program? -/
def Form.validate (a : Form) : Except Malformed Unit := validateAll [a]

/-- Is this tree a program? -/
def Node.validate : Node → Except Malformed Unit
  | .form a => Form.validate a
  | .missing => .error ⟨none, .rootNotForm⟩
  | n => .error ⟨some n, .rootNotForm⟩

/-- Is this a program, where even the root may be missing? -/
def validateProgram : Option Form → Except Malformed Form
  | some a => a.validate.map fun _ => a
  | none => .error ⟨some .missing, .rootNotForm⟩

/-! ## The same search by recursion -/

mutual

/-- The first defect of a tree: of the form itself, then of the forms below it from
right to left. -/
def Node.firstDefect : Node → Option Malformed
  | .missing => none
  | .terminal _ => none
  | .form [] =>
    match Form.check [] with
    | .error e => some e
    | .ok () => none
  | .form (operator :: operands) =>
    match Form.check (operator :: operands) with
    | .error e => some e
    | .ok () => Node.lastDefect operands

/-- The first defect of the trees of a list, searched from right to left. -/
def Node.lastDefect : List Node → Option Malformed
  | [] => none
  | n :: ns =>
    match Node.lastDefect ns with
    | some e => some e
    | none => Node.firstDefect n

end

/-! ## The language of programs -/

mutual

/-- The forms that are programs. -/
inductive Program : Form → Prop where
  /-- A choice between two operands. -/
  | ifElse {c t e : Node} : Operand c → Operand t → Operand e → Program (Form.ifElse c t e)
  /-- A comparison of two operands. -/
  | eq {a b : Node} : Operand a → Operand b → Program (Form.eq a b)
  /-- Two operands in order. -/
  | prog2 {a b : Node} : Operand a → Operand b → Program (Form.prog2 a b)
  /-- Three operands in order. -/
  | prog3 {a b c : Node} : Operand a → Operand b → Operand c → Program (Form.prog3 a b c)

/-- The trees that may stand as an operand of a program. -/
inductive Operand : Node → Prop where
  /-- A leaf of the vocabulary. -/
  | leaf (l : Leaf) : Operand l.node
  /-- Another program. -/
  | program {a : Form} : Program a → Operand (.form a)

end

end Stepwise
