import Stepwise.Machine.Journal
import Stepwise.Machine.Run
import Stepwise.Tree.Validation

/-!
# Evaluating one program

A program is evaluated by playing a game with it until the game is over or a budget
of steps is used up.  An evaluation can be called off from outside.  It notices
that only now and then, before every step whose number is a multiple of 1024, and
stops there with nothing to show.

The three tests before a step come in this order: is the game over, is the budget
used up, has the evaluation been called off.
-/

namespace Stepwise.Fitness

/-- The budget when none is given. -/
def defaultMaxSteps : Int64 := 100000

/-- The number of steps between two looks at whether the evaluation was called off. -/
def checkEvery : Nat := 1024

/-- The budget of an evaluation.  A number that is not positive stands for the
default. -/
def budget (maxSteps : Int64) : Nat :=
  (if maxSteps ≤ 0 then defaultMaxSteps else maxSteps).toInt.toNat

/-- How the steps of an evaluation came to an end. -/
inductive Ending where
  /-- The game was over or the budget was used up. -/
  | complete
  /-- The evaluation was called off. -/
  | cancelled
  /-- A step failed. -/
  | failed (e : Malformed)
deriving DecidableEq

variable {σ : Type}

/-- Make up to `left` more steps after `done` steps.  `cancelled n s` says whether the
evaluation has been called off when `n` steps are done and the game is in state `s`. -/
def playOn (env : Environment σ) (cancelled : Nat → σ → Bool) :
    Nat → Nat → Machine σ → Ending × Machine σ
  | left, done, m =>
    if env.finished m.state then (.complete, m)
    else match left with
      | 0 => (.complete, m)
      | left + 1 =>
        if done % checkEvery = 0 && cancelled done m.state then (.cancelled, m)
        else match m.step env with
          | (m, .error e) => (.failed e, m)
          | (m, .ok _) => playOn env cancelled left (done + 1) m

/-- What an evaluation reports about a program. -/
structure Result where
  /-- The program. -/
  program : Form
  /-- Was the game over and won? -/
  won : Bool
  /-- Was the game over? -/
  finished : Bool
  /-- Did the budget run out first? -/
  exhausted : Bool
  /-- The work done. -/
  stats : Stats
  /-- The depth of the program. -/
  depth : Nat
  /-- The number of nodes of the program. -/
  nodeCount : Nat
deriving DecidableEq

/-- One evaluation that has come to an end. -/
structure Run (σ : Type) where
  /-- The program. -/
  program : Form
  /-- The game at the start. -/
  start : σ
  /-- The machine at the end. -/
  final : Machine σ
  /-- How it came to the end. -/
  ending : Ending

namespace Run

/-- Play a game from its start with a program. -/
def play (env : Environment σ) (maxSteps : Int64) (cancelled : Nat → σ → Bool) (program : Form)
    (start : σ) : Run σ :=
  let (ending, final) := playOn env cancelled (budget maxSteps) 0 (Machine.new program start)
  { program, start, final, ending }

/-- The report on a run that is complete. -/
def report (env : Environment σ) (r : Run σ) : Result :=
  let finished := env.finished r.final.state
  { program := r.program
    won := finished && env.won r.final.state
    finished
    exhausted := !finished
    stats := r.final.stats
    depth := (Node.form r.program).depth
    nodeCount := (Node.form r.program).nodeCount }

/-- The number of steps of a run. -/
def steps (r : Run σ) : Int64 := r.final.stats.steps

/-- The last record of a run. -/
def closing (env : Environment σ) (r : Run σ) : List Log.Record :=
  match r.ending with
  | .failed _ => []
  | .cancelled =>
    [{ level := Log.Level.debug, message := "evaluation cancelled",
       fields := [("steps", .int r.steps)] }]
  | .complete =>
    let result := r.report env
    [{ level := Log.Level.debug, message := "evaluated",
       fields := [("program", .text r.program.text), ("won", .flag result.won),
         ("exhausted", .flag result.exhausted), ("ticks", .int result.stats.ticks),
         ("steps", .int result.stats.steps)] }]

/-- Everything that a run logs. -/
def log (env : Environment σ) (r : Run σ) : List Log.Record :=
  let made := (Machine.new r.program r.start).transcript env r.steps.toInt.toNat
  made.map Transition.record ++ r.closing env

end Run

/-- Why an evaluation of one program has nothing to show. -/
inductive RunError where
  /-- The program is malformed. -/
  | malformed (e : Malformed)
  /-- The evaluation was called off. -/
  | cancelled
  /-- There is no machine. -/
  | refused (r : Machine.Refusal)
deriving DecidableEq

/-- The wording of such an error. -/
def RunError.message : RunError → String
  | .malformed e => e.message
  | .cancelled => "context canceled"
  | .refused r => r.message

/-- The outcome of a run. -/
def Run.outcome (env : Environment σ) (r : Run σ) : Except RunError Result :=
  match r.ending with
  | .complete => .ok (r.report env)
  | .cancelled => .error .cancelled
  | .failed e => .error (.malformed e)

/-- Validate a program and play a game with it, if there is one. -/
def run (env : Environment σ) (maxSteps : Int64) (cancelled : Nat → σ → Bool)
    (program? : Option Form) (start? : Option σ) : Except RunError (Run σ) :=
  match validateProgram program?, start? with
  | .error e, _ => .error (.malformed e)
  | .ok _, none => .error (.refused .noGame)
  | .ok program, some start => .ok (Run.play env maxSteps cancelled program start)

end Stepwise.Fitness
