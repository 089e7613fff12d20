import Stepwise.Text.Quoted
import Stepwise.Tree.Vocabulary

/-!
# Malformed programs

Both validation and evaluation refuse a tree that falls outside the vocabulary or
has the wrong shape.  A refusal names the node it is about, when there is one, and
a reason.  The two lookups at the end are shared by both sides: `Form.control`
reads the operator of a form and `leafNamed` the meaning of an operand terminal.
-/

namespace Stepwise

/-- Why a tree is refused. -/
inductive Reason where
  /-- The root is not a form. -/
  | rootNotForm
  /-- A form does not start with a terminal. -/
  | operatorMissing
  /-- A name is not in the vocabulary, or not a control operator where one is needed. -/
  | notFunction (name : String)
  /-- A control operator stands as an operand. -/
  | notOperand (name : String)
  /-- Validation finds a form with the wrong number of operands. -/
  | arity (c : Control) (got : Nat)
  /-- Validation finds no node at operand `k`. -/
  | operandMissing (k : Nat)
  /-- Evaluation meets a form with the wrong number of operands. -/
  | operandCount
  /-- Evaluation finds no node at the operand it is about to evaluate. -/
  | operandUnusable
deriving DecidableEq

/-- The wording of a reason. -/
def Reason.message : Reason → String
  | .rootNotForm => "program root must be an application"
  | .operatorMissing => "first child must be an operator terminal"
  | .notFunction name => Text.quote name ++ " is not a function"
  | .notOperand name => Text.quote name ++ " cannot be used as an operand"
  | .arity c got =>
      Text.quote c.name ++ " takes " ++ toString c.arity ++ " operands, got " ++ toString got
  | .operandMissing k => "operand " ++ toString k ++ " has unexpected type <nil>"
  | .operandCount => "wrong number of operands"
  | .operandUnusable => "operand is neither an application nor a terminal"

/-- A refusal of a tree. -/
structure Malformed where
  /-- The node that is refused.  A missing root has no node to name. -/
  node : Option Node
  /-- Why. -/
  reason : Reason
deriving DecidableEq

/-- The wording of a refusal, which ends with the refused node. -/
def Malformed.message (e : Malformed) : String :=
  let head := "malformed program: " ++ e.reason.message
  match e.node with
  | none => head
  | some n => head ++ " in " ++ n.shown

/-- Refuse the form `a`. -/
def Form.refuse (a : Form) (reason : Reason) : Malformed := ⟨some (.form a), reason⟩

/-- The control operator of a form. -/
def Form.control (a : Form) : Except Malformed Control :=
  match a.operator? with
  | none => .error (a.refuse .operatorMissing)
  | some name =>
    match Op.ofName? name with
    | some (.control c) => .ok c
    | _ => .error (a.refuse (.notFunction name))

/-- The leaf that a terminal stands for as an operand. -/
def leafNamed (name : String) : Except Malformed Leaf :=
  match Op.ofName? name with
  | some (.leaf l) => .ok l
  | some (.control _) => .error ⟨some (.terminal name), .notOperand name⟩
  | none => .error ⟨some (.terminal name), .notFunction name⟩

end Stepwise
