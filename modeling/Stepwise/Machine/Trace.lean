import Stepwise.Machine.Step

/-!
# The trace of an evaluation

A trace shows the pending frames laid over the program.  The program is written
over several lines, one operand a line, indented by two blanks a level.  An operand
that has been passed shows its value in front and stands in braces.  The operand
that comes next in the innermost frame is marked, and operands that have not been
reached are written as they are.  A resolving frame has the mark at its operator, and
a finished one shows its result there.

`Node.layout` is the text of a tree without any marks.
-/

namespace Stepwise

/-- The blanks of indentation level `t`, in front of `rest`. -/
def indented (t : Nat) (rest : List Char) : List Char := List.replicate (2 * t) ' ' ++ rest

namespace Node

mutual

/-- The text of a node over several lines, at indentation level `t`, in front of
`rest`.  The operator of a form is written on one line. -/
def layout : Nat → Node → List Char → List Char
  | _, .missing, rest => spell .missing rest
  | _, .terminal name, rest => spell (.terminal name) rest
  | t, .form [], rest => '(' :: '\n' :: indented t (')' :: rest)
  | t, .form (n :: ns), rest =>
    '(' :: spell n (layoutTail (t + 1) ns ('\n' :: indented t (')' :: rest)))

/-- The operands of a form, each on a line of its own. -/
def layoutTail : Nat → List Node → List Char → List Char
  | _, [], rest => rest
  | t, n :: ns, rest => '\n' :: indented t (layout t n (layoutTail t ns rest))

end

end Node

/-- A node that has been passed: its value, and the node in braces. -/
def annotated (t : Nat) (v : Value) (n : Node) (rest : List Char) : List Char :=
  v.text.toList ++ ' ' :: '\x7b' :: n.layout t ('\x7d' :: rest)

namespace Frame

/-- The child at which the cursor stands.  It is the operator unless an operand comes
next. -/
def marked (f : Frame) : Nat := f.operandNumber

/-- The text of child `k`, at level `t`, without a mark.  `inner` writes the frames
inside this one, if there are any. -/
def child (f : Frame) (t : Nat) (inner : Option (List Char → List Char)) (k : Nat) (n : Node)
    (rest : List Char) : List Char :=
  match k, f.cursor, inner with
  | 0, .finished, _ => annotated t f.result n rest
  | 0, _, _ => n.spell rest
  | k + 1, .operand j, none =>
    if j ≤ k + 1 then n.layout t rest else annotated t (f.slot (k + 1)) n rest
  | k + 1, .operand j, some write =>
    if j = k + 1 then write rest
    else if j ≤ k + 1 then n.layout t rest
    else annotated t (f.slot (k + 1)) n rest
  | k + 1, _, _ => annotated t (f.slot (k + 1)) n rest

/-- The text of child `k` with the mark of the innermost frame, if it is there. -/
def markedChild (f : Frame) (t : Nat) (inner : Option (List Char → List Char)) (k : Nat)
    (n : Node) (rest : List Char) : List Char :=
  if inner.isNone && f.marked = k then
    if f.cursor = .finished then '@' :: f.child t inner k n rest
    else '@' :: '[' :: f.child t inner k n (']' :: rest)
  else f.child t inner k n rest

/-- The children from number `k` on, each but the operator on a line of its own. -/
def children (f : Frame) (t : Nat) (inner : Option (List Char → List Char)) :
    Nat → List Node → List Char → List Char
  | _, [], rest => rest
  | 0, n :: ns, rest => f.markedChild t inner 0 n (children f t inner 1 ns rest)
  | k + 1, n :: ns, rest =>
    '\n' :: indented t (f.markedChild t inner (k + 1) n (children f t inner (k + 2) ns rest))

/-- The text of nested frames, the outermost first, the first at level `t`. -/
def overlay : Nat → List Frame → List Char → List Char
  | _, [], rest => rest
  | t, [f], rest => '(' :: f.children (t + 1) none 0 f.scope ('\n' :: indented t (')' :: rest))
  | t, f :: g :: inner, rest =>
    '(' :: f.children (t + 1) (some fun r => overlay (t + 1) (g :: inner) r) 0 f.scope
      ('\n' :: indented t (')' :: rest))

end Frame

/-- The trace of a machine.  Between rounds the whole program is marked. -/
def Machine.trace {σ : Type} (m : Machine σ) : String :=
  String.ofList <| match m.stack.outermostFirst with
    | [] => '@' :: '[' :: Node.layout 0 (.form m.program) [']']
    | frames => Frame.overlay 0 frames []

end Stepwise
