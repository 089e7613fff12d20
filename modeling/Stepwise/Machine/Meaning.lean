import Stepwise.Game.Environment

/-!
# The meaning of a program

What a program does in one round, up to the idle tick that ends it, can be said without
frames and cursors, by recursion over the tree.

* A move tells the game and has the value one or zero, as it succeeded or not.
* A sensor has the value that it reads.
* `eq` evaluates both operands from left to right and has the value one if they are
  equal, else zero.
* `if` evaluates its first operand, then the second if that is nonzero and the third if
  it is zero, and has the value of the operand it chose.
* `prog2` and `prog3` evaluate their operands from left to right and have the value of
  the last.

The evaluation also lists what it asked of the game, with the answers.  It is defined on
programs and on the leaves that may stand as operands, and nowhere else.
-/

namespace Stepwise

/-- Something that was asked of a game, with the answer. -/
inductive Call where
  /-- A tick was played with an action. -/
  | advance (a : Action) (ok : Bool)
  /-- A sensor was read. -/
  | read (s : Sensor) (v : Int64)
deriving DecidableEq, Repr

/-- What an evaluation gives. -/
structure Evaluated (σ : Type) where
  /-- The value. -/
  value : Int64
  /-- The state of the game afterwards. -/
  state : σ
  /-- What was asked of the game, in order. -/
  calls : List Call

namespace Evaluated

variable {σ : Type}

/-- The same evaluation after earlier calls. -/
def after (calls : List Call) (e : Evaluated σ) : Evaluated σ :=
  { e with calls := calls ++ e.calls }

/-- The same evaluation with another value. -/
def withValue (v : Int64) (e : Evaluated σ) : Evaluated σ := { e with value := v }

end Evaluated

/-- The evaluation of a leaf. -/
def Leaf.eval {σ : Type} (env : Environment σ) (s : σ) : Leaf → Evaluated σ
  | .move m =>
    let (ok, s) := env.advance (.move m) s
    ⟨if ok then 1 else 0, s, [.advance (.move m) ok]⟩
  | .sense x =>
    let (v, s) := env.read x s
    ⟨v, s, [.read x v]⟩

/-- The evaluation of an operand or a program. -/
def Node.eval {σ : Type} (env : Environment σ) : Node → σ → Option (Evaluated σ)
  | .terminal name, s =>
    match Op.ofName? name with
    | some (.leaf l) => some (l.eval env s)
    | _ => none
  | .form [.terminal name, a, b], s =>
    match Op.ofName? name with
    | some (.control .eq) => do
      let x ← eval env a s
      let y ← eval env b x.state
      some ((y.after x.calls).withValue (if x.value = y.value then 1 else 0))
    | some (.control .prog2) => do
      let x ← eval env a s
      let y ← eval env b x.state
      some (y.after x.calls)
    | _ => none
  | .form [.terminal name, a, b, c], s =>
    match Op.ofName? name with
    | some (.control .ifElse) => do
      let x ← eval env a s
      let y ← if x.value ≠ 0 then eval env b x.state else eval env c x.state
      some (y.after x.calls)
    | some (.control .prog3) => do
      let x ← eval env a s
      let y ← eval env b x.state
      let z ← eval env c y.state
      some ((z.after y.calls).after x.calls)
    | _ => none
  | _, _ => none

end Stepwise
