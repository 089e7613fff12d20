import Stepwise.Tree.Malformed

/-!
# Frames

A *frame* is a form whose evaluation has begun.  Its cursor says what the next step
does to it: evaluate an operand, compute the form's own result, or hand the result
to the frame below.  Its slots hold one value per child.  Slot zero is for the
form's own result, the others for its operands, and a slot without a value has not
been filled.

A `Snapshot` is a frame as it is shown to the outside.  It also describes frames
that no evaluation reaches.
-/

namespace Stepwise

/-- The value of a slot, if it has been filled. -/
abbrev Value := Option Int64

namespace Value

/-- The value of a truth value, one or zero. -/
def ofBool (b : Bool) : Value := some (if b then 1 else 0)

/-- Is there a value other than zero? -/
def truthy : Value → Bool
  | some n => n ≠ 0
  | none => false

/-- The text of a value.  A slot that has not been filled shows a tilde. -/
def text : Value → String
  | some n => toString n
  | none => "~"

end Value

/-- What the next step does to a frame. -/
inductive Cursor where
  /-- Evaluate this operand, counted from one. -/
  | operand (k : Nat)
  /-- Compute the result of the form. -/
  | resolving
  /-- Hand the result on. -/
  | finished
deriving DecidableEq, Repr

/-- A form whose evaluation has begun. -/
structure Frame where
  /-- The form. -/
  scope : Form
  /-- What comes next. -/
  cursor : Cursor
  /-- One value per child, the form's own result first. -/
  slots : List Value
deriving DecidableEq

namespace Frame

/-- A frame at the start.  A form without operands is ready to be resolved. -/
def enter (scope : Form) : Frame where
  scope
  cursor := if scope.operandCount = 0 then .resolving else .operand 1
  slots := List.replicate scope.length none

/-- The value of slot `k`. -/
def slot (f : Frame) (k : Nat) : Value := (f.slots[k]?).join

/-- Fill slot `k`. -/
def store (f : Frame) (k : Nat) (v : Value) : Frame := { f with slots := f.slots.set k v }

/-- The form's own result. -/
def result (f : Frame) : Value := f.slot 0

/-- Move the cursor past operand `k`. -/
def passed (f : Frame) (k : Nat) : Frame :=
  { f with cursor := if f.scope.operandCount ≤ k then .resolving else .operand (k + 1) }

/-- The control operator of a frame's form, which must have the right number of
operands. -/
def control (f : Frame) : Except Malformed Control :=
  match f.scope.control with
  | .error e => .error e
  | .ok c =>
    if f.scope.operandCount = c.arity then .ok c
    else .error (f.scope.refuse .operandCount)

/-- Is operand `k` evaluated?  Only a choice leaves operands out: the second unless
the first is nonzero, and the third if it is. -/
def takes (f : Frame) (c : Control) (k : Nat) : Bool :=
  match c with
  | .ifElse => k = 1 || (k = 2 && (f.slot 1).truthy) || (k = 3 && !(f.slot 1).truthy)
  | _ => true

/-- The result of a form from the values of its operands. -/
def resolved (f : Frame) (c : Control) : Value :=
  match c with
  | .eq => Value.ofBool ((f.slot 1).isSome && f.slot 1 = f.slot 2)
  | .ifElse => if (f.slot 1).truthy then f.slot 2 else f.slot 3
  | .prog2 | .prog3 => f.slot (f.slots.length - 1)

end Frame

/-! ## Snapshots -/

/-- The three stages in the life of a frame. -/
inductive Phase where
  /-- Operands are being evaluated. -/
  | evaluating
  /-- The result is about to be computed. -/
  | resolving
  /-- The result is there. -/
  | finished
deriving DecidableEq, Repr

namespace Phase

/-- The name of a phase. -/
def name : Phase → String
  | .evaluating => "evaluating"
  | .resolving => "resolving"
  | .finished => "finished"

/-- The phase with a given number. -/
def ofCode? : Int64 → Option Phase
  | 0 => some .evaluating
  | 1 => some .resolving
  | 2 => some .finished
  | _ => none

/-- The name of a phase that may not be one of the three. -/
def nameOrUnknown : Option Phase → String
  | some p => p.name
  | none => "unknown"

end Phase

/-- A frame as it is shown. -/
structure Snapshot where
  /-- The form, if there is one. -/
  scope? : Option Form
  /-- The phase, if it is one of the three. -/
  phase : Option Phase
  /-- The number of the operand at the cursor, or zero. -/
  operand : Int64
  /-- One value per child, the form's own result first. -/
  slots : List Value

namespace Snapshot

/-- The form's own result. -/
def result (s : Snapshot) : Value := (s.slots[0]?).join

/-- The cursor as one number: zero while resolving, minus one once finished, and
otherwise the operand. -/
def position (s : Snapshot) : Int64 :=
  match s.phase with
  | some .resolving => 0
  | some .finished => -1
  | _ => s.operand

/-- The tree of a frame. -/
def node (s : Snapshot) : Node :=
  match s.scope? with
  | some a => .form a
  | none => .missing

/-- The one-line text of a frame: position, form and values. -/
def text (s : Snapshot) : String :=
  toString s.position ++ " @ " ++ s.node.shown
    ++ " = [" ++ ", ".intercalate (s.slots.map Value.text) ++ "]"

end Snapshot

namespace Frame

/-- The phase of a frame. -/
def phase (f : Frame) : Phase :=
  match f.cursor with
  | .operand _ => .evaluating
  | .resolving => .resolving
  | .finished => .finished

/-- The number of the operand at the cursor, or zero. -/
def operandNumber (f : Frame) : Nat :=
  match f.cursor with
  | .operand k => k
  | _ => 0

/-- How a frame is shown. -/
def snapshot (f : Frame) : Snapshot :=
  ⟨some f.scope, some f.phase, Int64.ofNat f.operandNumber, f.slots⟩

end Frame

end Stepwise
