import Stepwise.Fitness.Batch

/-!
# Evaluations in any order

The evaluations of a batch need not be made one after another.  Each has a game and a
machine of its own, so several may be under way at once, and their steps may come in any
order.

A `Pool` holds the evaluations of a batch, each of them waiting, under way or ended.  A
*turn* of an evaluation does one thing: it begins with a new game, makes one step, or
ends.  With a limit on the evaluations at once, one may begin only when fewer than that
many of those before it have not ended.  The first failure is remembered and then calls off
the others, each of which notices that at one of its later looks.

A *schedule* is a list of turns.  A turn has a place in the pool, and it says whether the
evaluation there can see yet that the batch was called off, since that may take a while to
get through.  A turn that is not possible changes nothing, so every list is a schedule.
`Pool.follow` follows one, and once the pool is `settled` its outcome is that of the batch.
-/

namespace Stepwise.Fitness

variable {σ : Type}

/-- How far an evaluation has come. -/
inductive Progress (σ : Type) where
  /-- It has no game yet. -/
  | waiting
  /-- It began with the game in state `start` and has made `done` steps. -/
  | playing (start : σ) (done : Nat) (m : Machine σ)
  /-- It has come to an end. -/
  | ended (job : Job σ)

/-- An evaluation in a pool. -/
structure Evaluation (σ : Type) where
  /-- The number of the program. -/
  number : Nat
  /-- The program. -/
  program : Form
  /-- How far it has come. -/
  progress : Progress σ := .waiting

namespace Evaluation

/-- Has the evaluation come to an end? -/
def hasEnded (t : Evaluation σ) : Bool :=
  match t.progress with
  | .ended _ => true
  | _ => false

/-- Does the evaluation wait for a game? -/
def isWaiting (t : Evaluation σ) : Bool :=
  match t.progress with
  | .waiting => true
  | _ => false

/-- Begin with a game, if there is one. -/
def beginWith (game? : Option σ) (t : Evaluation σ) : Progress σ :=
  match game? with
  | none => .ended ⟨t.number, none⟩
  | some start => .playing start 0 (Machine.new t.program start)

/-- End in a given way. -/
def finish (start : σ) (m : Machine σ) (ending : Ending) (t : Evaluation σ) : Progress σ :=
  .ended ⟨t.number, some { program := t.program, start, final := m, ending }⟩

/-- Go on after `done` steps.  The tests before a step are those of a single
evaluation: is the game over, is the budget used up, has the evaluation been called
off. -/
def goOn (e : Evaluator σ) (stopped : Bool) (start : σ) (done : Nat) (m : Machine σ)
    (t : Evaluation σ) : Progress σ :=
  if e.env.finished m.state || budget e.maxSteps ≤ done then t.finish start m .complete
  else if done % checkEvery = 0 && (stopped || e.trips m.state) then t.finish start m .cancelled
  else match m.step e.env with
    | (m, .error err) => t.finish start m (.failed err)
    | (m, .ok _) => .playing start (done + 1) m

/-- One turn of an evaluation.  `game?` is the new game that it gets if it is about to
begin. -/
def turn (e : Evaluator σ) (game? : Option σ) (stopped : Bool) (t : Evaluation σ) : Evaluation σ :=
  match t.progress with
  | .waiting => { t with progress := t.beginWith game? }
  | .playing start done m => { t with progress := t.goOn e stopped start done m }
  | .ended _ => t

/-- The error of an evaluation that has failed. -/
def failure? (e : Evaluator σ) (t : Evaluation σ) : Option BatchError :=
  match t.progress with
  | .ended job =>
    match job.outcome e.env with
    | .error err => some err
    | .ok _ => none
  | _ => none

/-- The result of an evaluation that has succeeded, with its number. -/
def result? (e : Evaluator σ) (t : Evaluation σ) : Option (Nat × Graded) :=
  match t.progress with
  | .ended job =>
    match job.outcome e.env with
    | .error _ => none
    | .ok g => some (job.number, g)
  | _ => none

/-- Does the evaluation call off the batch, as it stands now? -/
def callsOff (e : Evaluator σ) (t : Evaluation σ) : Bool :=
  match t.progress with
  | .waiting => false
  | .playing _ _ m => e.trips m.state
  | .ended job => job.callsOff e

end Evaluation

/-- A turn of a schedule. -/
structure Turn where
  /-- The place of the evaluation whose turn it is. -/
  place : Nat
  /-- Can it see yet that the batch was called off? -/
  aware : Bool := true
deriving DecidableEq, Repr

/-- The evaluations of a batch. -/
structure Pool (σ : Type) where
  /-- The evaluations, in the order of their programs. -/
  evaluations : List (Evaluation σ)
  /-- The number of games that were asked for. -/
  asked : Nat := 0
  /-- Has the batch been called off? -/
  stopped : Bool
  /-- The first failure. -/
  failure? : Option BatchError := none

namespace Pool

/-- The evaluations of programs with their numbers, before anything has happened. -/
def ofPrograms (e : Evaluator σ) (programs : List (Nat × Form)) : Pool σ where
  evaluations := programs.map fun (n, a) => { number := n, program := a }
  stopped := e.cancelled

/-- May the evaluation in place `i` begin?  A limit that is not positive is none. -/
def mayBegin (limit : Int64) (i : Nat) (p : Pool σ) : Bool :=
  limit ≤ 0 || (p.evaluations.take i).countP (fun t => !t.hasEnded) < limit.toInt.toNat

/-- Can the evaluation in place `i`, which is `t`, do anything? -/
def mayMove (limit : Int64) (i : Nat) (t : Evaluation σ) (p : Pool σ) : Bool :=
  !t.hasEnded && (!t.isWaiting || p.mayBegin limit i)

/-- One turn, if it is possible. -/
def turn (e : Evaluator σ) (fresh : Nat → Option σ) (p : Pool σ) (u : Turn) : Pool σ :=
  match p.evaluations[u.place]? with
  | none => p
  | some t =>
    if p.mayMove e.concurrency u.place t then
      let moved := t.turn e (fresh p.asked) (u.aware && p.stopped)
      { evaluations := p.evaluations.set u.place moved
        asked := if t.isWaiting then p.asked + 1 else p.asked
        stopped := p.stopped || moved.callsOff e
        failure? := p.failure?.or (moved.failure? e) }
    else p

/-- Follow a schedule. -/
def follow (e : Evaluator σ) (fresh : Nat → Option σ) (p : Pool σ) (schedule : List Turn) :
    Pool σ :=
  schedule.foldl (turn e fresh) p

/-- Have all evaluations come to an end? -/
def settled (p : Pool σ) : Bool := p.evaluations.all Evaluation.hasEnded

/-- The outcome of a settled pool for a batch of programs. -/
def outcome (e : Evaluator σ) (programs : List Form) (p : Pool σ) :
    Except BatchError (List Graded) :=
  match p.failure? with
  | some err => .error err
  | none => .ok (handOut programs (p.evaluations.filterMap (Evaluation.result? e)))

end Pool

/-- The pool of a batch of valid programs after a schedule. -/
def Evaluator.poolAfter (e : Evaluator σ) (fresh : Nat → Option σ) (programs : List Form)
    (schedule : List Turn) : Pool σ :=
  (Pool.ofPrograms e (distinct programs)).follow e fresh schedule

end Stepwise.Fitness
