import Stepwise.Fitness.Run

/-!
# Evaluating many programs

A batch of programs is evaluated in three stages.

First every program is validated.  The first one that is malformed fails the whole
batch before any game is started.

Then programs with the same text are grouped, and one evaluation is made for each
group, on a new game.  The program with the lowest number stands for its group.
The first evaluation that fails calls off those after it, and a game may call off
the evaluations as well.  An evaluation that has been called off still takes a new
game, and it still succeeds if that game is already over.

Last, if no evaluation failed, the results are handed out to the programs of each
group.  A result names its program by its number in the batch, since programs that look
alike are still different members of it.  The one that stands for its group keeps its
result as it is, and every other gets a copy that is made to name it instead.
-/

namespace Stepwise.Fitness

variable {σ : Type}

/-- How a batch is evaluated. -/
structure Evaluator (σ : Type) where
  /-- The game. -/
  env : Environment σ
  /-- The start of each new game, by its number, if there is a supply of games at all.
  The supply may also have nothing to give. -/
  supply : Option (Nat → Option σ)
  /-- The budget of each evaluation. -/
  maxSteps : Int64 := 0
  /-- The number of evaluations that may be under way at once, if it is positive.  The
  results of a batch that succeeds do not depend on it. -/
  concurrency : Int64 := 0
  /-- Was the batch called off before it began? -/
  cancelled : Bool := false
  /-- Does a game in this state call off the batch? -/
  trips : σ → Bool := fun _ => false

/-- Why a batch fails. -/
inductive BatchError where
  /-- There is no supply of games. -/
  | noSupply
  /-- A program is malformed. -/
  | malformed (n : Nat) (e : Malformed)
  /-- There was no game for a program. -/
  | noGame (n : Nat)
  /-- The evaluation of a program was called off. -/
  | cancelled (n : Nat)
deriving DecidableEq

/-- The beginning of an error text that names a program. -/
def programLabel (n : Nat) : String := "program " ++ toString n ++ ": "

/-- The wording of an error. -/
def BatchError.message : BatchError → String
  | .noSupply => "fitness: NewEnvironment is required"
  | .malformed n e => programLabel n ++ (RunError.malformed e).message
  | .noGame n => programLabel n ++ "fitness: NewEnvironment returned nil"
  | .cancelled n => programLabel n ++ RunError.cancelled.message

/-- Validate programs, the first with number `n`. -/
def validateBatch : Nat → List (Option Form) → Except BatchError (List Form)
  | _, [] => .ok []
  | n, p :: ps =>
    match validateProgram p with
    | .error e => .error (.malformed n e)
    | .ok a => (validateBatch (n + 1) ps).map (a :: ·)

/-- The number of the first program with the same text, for each program. -/
def owners (programs : List Form) : List Nat :=
  let texts := programs.map Form.text
  texts.map fun t => texts.idxOf t

/-- The programs that stand for their group, with their numbers. -/
def distinct (programs : List Form) : List (Nat × Form) :=
  ((owners programs).zip programs).zipIdx.filterMap fun ((owner, a), n) =>
    if owner = n then some (n, a) else none

/-- A result in a batch. -/
structure Graded where
  /-- What is reported about the program. -/
  result : Result
  /-- The number of the program that the result names. -/
  number : Nat
  /-- The number of the program whose evaluation gave the result. -/
  owner : Nat

/-- The copy of a result for the program `a` with number `n`. -/
def Graded.copyFor (n : Nat) (a : Form) (g : Graded) : Graded :=
  { g with result := { g.result with program := a }, number := n }

/-- One evaluation of a batch. -/
structure Job (σ : Type) where
  /-- The number of the program. -/
  number : Nat
  /-- The evaluation, if there was a game. -/
  run? : Option (Run σ)

namespace Job

/-- The outcome of a job.  Its result names the program that was evaluated. -/
def outcome (env : Environment σ) (j : Job σ) : Except BatchError Graded :=
  match j.run? with
  | none => .error (.noGame j.number)
  | some r =>
    match r.ending with
    | .complete => .ok { result := r.report env, number := j.number, owner := j.number }
    | .cancelled => .error (.cancelled j.number)
    | .failed e => .error (.malformed j.number e)

/-- Is the batch called off once this job is done? -/
def callsOff (e : Evaluator σ) (j : Job σ) : Bool :=
  (match j.outcome e.env with
    | .ok _ => false
    | .error _ => true) ||
  (match j.run? with
    | some r => e.trips r.final.state
    | none => false)

/-- Everything that a job logs. -/
def log (env : Environment σ) (j : Job σ) : List Log.Record :=
  match j.run? with
  | some r => r.log env
  | none => []

end Job

/-- Make the evaluations one after another, the first on game number `k`.  `stopped`
says whether the batch has been called off. -/
def Evaluator.jobs (e : Evaluator σ) (fresh : Nat → Option σ) :
    Nat → Bool → List (Nat × Form) → List (Job σ)
  | _, _, [] => []
  | k, stopped, (n, a) :: rest =>
    let run? := (fresh k).map fun start =>
      Run.play e.env e.maxSteps (fun _ s => stopped || e.trips s) a start
    let job : Job σ := ⟨n, run?⟩
    job :: e.jobs fresh (k + 1) (stopped || job.callsOff e) rest

/-- The results of jobs with their numbers, or the first error. -/
def collect (env : Environment σ) : List (Job σ) → Except BatchError (List (Nat × Graded))
  | [] => .ok []
  | j :: js =>
    match j.outcome env with
    | .error e => .error e
    | .ok g => (collect env js).map ((j.number, g) :: ·)

/-- The results of all programs from those of the evaluated ones. -/
def handOut (programs : List Form) (results : List (Nat × Graded)) : List Graded :=
  (programs.zip (owners programs)).zipIdx.filterMap fun ((a, owner), n) =>
    (results.lookup owner).map fun g => if owner = n then g else g.copyFor n a

/-- A batch that has been evaluated. -/
structure Batch (σ : Type) where
  /-- The evaluations that were made, if the batch got that far. -/
  jobs : List (Job σ)
  /-- The results, in the order of the programs. -/
  outcome : Except BatchError (List Graded)
  /-- The record that opens the log, if the batch got that far. -/
  opening : List Log.Record

namespace Batch

/-- The number of games that were asked for. -/
def created (b : Batch σ) : Nat := b.jobs.length

/-- Everything that a batch logs. -/
def log (env : Environment σ) (b : Batch σ) : List Log.Record :=
  b.opening ++ b.jobs.flatMap (Job.log env)

/-- A batch that failed before any evaluation. -/
def refused (e : BatchError) : Batch σ := ⟨[], .error e, []⟩

end Batch

/-- The record that opens the log of a batch. -/
def openingRecord (programs distinct : Nat) : Log.Record where
  level := Log.Level.debug
  message := "evaluate"
  fields := [("programs", .int (Int64.ofNat programs)), ("distinct", .int (Int64.ofNat distinct))]

/-- Evaluate a batch of programs. -/
def Evaluator.evaluate (e : Evaluator σ) (programs : List (Option Form)) : Batch σ :=
  match e.supply with
  | none => .refused .noSupply
  | some fresh =>
    match validateBatch 0 programs with
    | .error err => .refused err
    | .ok valid =>
      let jobs := e.jobs fresh 0 e.cancelled (distinct valid)
      { jobs
        outcome := (collect e.env jobs).map (handOut valid)
        opening := [openingRecord valid.length jobs.length] }

end Stepwise.Fitness
