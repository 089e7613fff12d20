import Stepwise.Machine.Step

/-!
# Running a machine

Between two ticks a machine makes only finitely many steps: within a round every
node of the program is visited once, and every form takes one step to be resolved
and one to be left.  `Machine.stepBound` counts them, and it bounds the steps until
the next tick from any point of the evaluation.  The loops below take it as the
number of steps they may make, so they need no other reason to stop.
-/

namespace Stepwise.Machine

variable {σ : Type}

/-- The number of steps within which a machine charges a tick or fails. -/
def stepBound (m : Machine σ) : Nat :=
  (Node.form m.program).nodeCount + (Node.form m.program).formCount

/-- Step until a tick is charged, at most `fuel` times. -/
def untilTick (env : Environment σ) : Nat → Machine σ → Machine σ × Except Malformed Unit
  | 0, m => (m, .ok ())
  | fuel + 1, m =>
    match m.step env with
    | (m, .error e) => (m, .error e)
    | (m, .ok t) => if t.event.charges then (m, .ok ()) else untilTick env fuel m

/-- Run to the next tick.  The answer says whether the game is over then. -/
def runTick (env : Environment σ) (m : Machine σ) : Machine σ × Except Malformed Bool :=
  match untilTick env m.stepBound m with
  | (m, .error e) => (m, .error e)
  | (m, .ok ()) => (m, .ok (env.finished m.state))

/-- Step until the game is over, at most `fuel` times. -/
def untilFinished (env : Environment σ) : Nat → Machine σ → Machine σ × Except Malformed Unit
  | 0, m => (m, .ok ())
  | fuel + 1, m =>
    if env.finished m.state then (m, .ok ())
    else match m.step env with
      | (m, .error e) => (m, .error e)
      | (m, .ok _) => untilFinished env fuel m

/-- Run to the end of a game that lasts at most `ticks` more ticks.  The answer says
whether the agent has won. -/
def runGame (env : Environment σ) (ticks : Nat) (m : Machine σ) :
    Machine σ × Except Malformed Bool :=
  match untilFinished env (ticks * m.stepBound) m with
  | (m, .error e) => (m, .error e)
  | (m, .ok ()) => (m, .ok (env.won m.state))

/-- Make `n` steps, putting what they did in front of `done`, the last step first.
A failed step does nothing and is not listed. -/
def stepsOnto (env : Environment σ) :
    Nat → List Transition → Machine σ → List Transition × Machine σ
  | 0, done, m => (done, m)
  | n + 1, done, m =>
    match m.step env with
    | (m, .error _) => stepsOnto env n done m
    | (m, .ok t) => stepsOnto env n (t :: done) m

/-- What the next `n` steps do, in order. -/
def transcript (env : Environment σ) (n : Nat) (m : Machine σ) : List Transition :=
  (stepsOnto env n [] m).1.reverse

/-- Make `n` steps and count the ticks they charge.  The first failure stops. -/
def stepTimes (env : Environment σ) : Nat → Machine σ → Machine σ × Except Malformed Nat
  | n, m => go n 0 m
where
  /-- Make `n` more steps after `charged` ticks. -/
  go : Nat → Nat → Machine σ → Machine σ × Except Malformed Nat
    | 0, charged, m => (m, .ok charged)
    | n + 1, charged, m =>
      match m.step env with
      | (m, .error e) => (m, .error e)
      | (m, .ok t) => go n (if t.event.charges then charged + 1 else charged) m

/-- Run `n` ticks.  The answer is the last tick's, and the first failure stops. -/
def runTicks (env : Environment σ) (n : Nat) (m : Machine σ) : Machine σ × Except Malformed Bool :=
  go n false m
where
  /-- Run `n` more ticks after one with the answer `last`. -/
  go : Nat → Bool → Machine σ → Machine σ × Except Malformed Bool
    | 0, last, m => (m, .ok last)
    | n + 1, _, m =>
      match m.runTick env with
      | (m, .error e) => (m, .error e)
      | (m, .ok ended) => go n ended m

end Stepwise.Machine
