import Stepwise.Game.Scripted
import Stepwise.Machine.Run
import Stepwise.Tree.Validation

/-!
# Trials

A trial runs a program in a game in order to look at what it does.  A trial begins
only with a valid program.  It can be run for a number of ticks, which needs a game
that remembers the actions taken, or for a number of steps.  A trial may begin without
a game, and then it cannot be run at all.

The checks at the end are those that a trial is usually judged by.  They take any
program, and fail if there is no program or no game.
-/

namespace Stepwise

variable {σ : Type}

/-- A trial in progress. -/
structure Trial (σ : Type) where
  /-- The game. -/
  env : Environment σ
  /-- The actions taken in a game, if it remembers them. -/
  actions? : σ → Option (List Action)
  /-- The machine, if there is a game. -/
  machine? : Option (Machine σ)

namespace Trial

/-- Begin a trial with a program, if it is one. -/
def new? (env : Environment σ) (actions? : σ → Option (List Action)) (program : Option Form)
    (state? : Option σ) : Except Malformed (Trial σ) :=
  (validateProgram program).map fun p => ⟨env, actions?, state?.map (Machine.new p)⟩

/-- The counters of a trial. -/
def stats (t : Trial σ) : Stats :=
  match t.machine? with
  | some m => m.stats
  | none => {}

/-- Run `n` ticks.  The answer is the list of actions taken during them, if there is a
game that remembers actions. -/
def ticks (n : Nat) (t : Trial σ) : Trial σ × Option (List Action) :=
  match t.machine? with
  | none => (t, none)
  | some m =>
    match t.actions? m.state with
    | none => (t, none)
    | some before =>
      let (m, _) := m.runTicks t.env n
      ({ t with machine? := some m },
        (t.actions? m.state).map fun after => after.drop before.length)

/-- Make `n` steps and count the ticks they charge, if there is a game. -/
def steps (n : Nat) (t : Trial σ) : Trial σ × Option Nat :=
  match t.machine? with
  | none => (t, none)
  | some m =>
    let (m, charged) := m.stepTimes t.env n
    ({ t with machine? := some m }, charged.toOption)

end Trial

/-! ## Checks -/

/-- Are the ticks the rounds and the moves together, and as many as were observed? -/
def Stats.accounts (s : Stats) (observed : Int64) : Bool :=
  s.ticks = s.rounds + s.actions && s.ticks = observed

namespace Trial

/-- Do the counters add up after `n` steps, none of which fails? -/
def accountsAfter (env : Environment σ) (program : Option Form) (state? : Option σ) (n : Nat)
    (observed : Int64) : Bool :=
  match Machine.new? program state? with
  | .error _ => false
  | .ok m =>
    match m.stepTimes env n with
    | (m, .ok _) => m.stats.accounts observed
    | (_, .error _) => false

/-- Is one of `n` steps malformed? -/
def malformedWithin (env : Environment σ) (program : Option Form) (state? : Option σ)
    (n : Nat) : Bool :=
  match Machine.new? program state? with
  | .error _ => false
  | .ok m =>
    match m.stepTimes env n with
    | (_, .ok _) => false
    | (_, .error _) => true

end Trial

end Stepwise
