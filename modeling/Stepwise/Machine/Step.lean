import Stepwise.Machine.Event

/-!
# The stepping machine

A machine evaluates one program against one game, a single transition at a time.
Everything that is pending lies on a stack of frames, so an evaluation can be left
alone after any step and taken up again later.

A step on an empty stack begins a *round* with the frame of the whole program.
Otherwise it does what the cursor of the innermost frame says.

* At an operand: leave it out if the operator does not want it, add a frame if it is
  a form, and else make the move or read the sensor that it names.
* Resolving: compute the form's result.
* Finished: remove the frame and hand its result to the frame below.  If there is
  none the round is over, and the game advances by a tick in which nothing is done.

So the game advances by one tick per move and one per round.

A step fails when it meets a tree that is not a program.  It fails before it
touches anything: of a failed step only the step counter remains.
-/

namespace Stepwise

/-- The work a machine has done.  The counters are 64-bit words. -/
structure Stats where
  /-- Steps, failed ones included. -/
  steps : Int64 := 0
  /-- Ticks of the game. -/
  ticks : Int64 := 0
  /-- Completed rounds. -/
  rounds : Int64 := 0
  /-- Moves made. -/
  actions : Int64 := 0
deriving DecidableEq, Repr

namespace Stats

/-- Count a step. -/
def countStep (s : Stats) : Stats := { s with steps := s.steps + 1 }

/-- Count a move and its tick. -/
def countAction (s : Stats) : Stats := { s with actions := s.actions + 1, ticks := s.ticks + 1 }

/-- Count a round and its tick. -/
def countRound (s : Stats) : Stats := { s with rounds := s.rounds + 1, ticks := s.ticks + 1 }

end Stats

/-- A program in evaluation against a game. -/
structure Machine (σ : Type) where
  /-- The program. -/
  program : Form
  /-- The state of the game. -/
  state : σ
  /-- The pending frames, the innermost first. -/
  stack : Stack Frame := []
  /-- The work done. -/
  stats : Stats := {}

namespace Machine

variable {σ : Type}

/-- A machine that has done nothing yet. -/
def new (program : Form) (state : σ) : Machine σ := { program, state }

/-- Why no machine can be made. -/
inductive Refusal where
  /-- There is no program. -/
  | noProgram
  /-- There is no game. -/
  | noGame
deriving DecidableEq, Repr

/-- The wording of a refusal. -/
def Refusal.message : Refusal → String
  | .noProgram => "interp: nil program"
  | .noGame => "interp: nil environment"

/-- A machine for a program and a game that may be missing.  The program is asked for
first. -/
def new? (program? : Option Form) (state? : Option σ) : Except Refusal (Machine σ) :=
  match program?, state? with
  | none, _ => .error .noProgram
  | some _, none => .error .noGame
  | some program, some state => .ok (new program state)

/-- Forget the pending frames and the counters.  The game keeps its state. -/
def reset (m : Machine σ) : Machine σ := { m with stack := [], stats := {} }

/-- The number of pending frames. -/
def depth (m : Machine σ) : Nat := m.stack.length

/-- The answer of a step. -/
abbrev Answer (σ : Type) := Machine σ × Except Malformed Transition

/-- The answer of a step that did what `event` says in the frame `context`, reports a depth
with it and left the machine `m`. -/
def done (m : Machine σ) (event : Event) (context : Option Frame) (depth : Nat) : Answer σ :=
  (m, .ok ⟨event, context, depth, m.stack⟩)

/-- Begin a round. -/
def beginRound (m : Machine σ) : Answer σ :=
  let f := Frame.enter m.program
  done { m with stack := [f] } (.start m.program) (some f) 1

/-- Remove the finished frame `f`, above the frames `below`. -/
def leave (env : Environment σ) (m : Machine σ) (f : Frame) (below : Stack Frame) : Answer σ :=
  match below with
  | [] =>
    let (_, state) := env.advance .none m.state
    done { m with state, stack := [], stats := m.stats.countRound } (.round f.scope f.result) none 0
  | parent :: outer =>
    let k := parent.operandNumber
    let parent := (parent.store k f.result).passed k
    done { m with stack := parent :: outer } (.handBack f.scope f.result) (some parent) below.length

/-- Compute the result of the innermost frame `f`, above the frames `below`. -/
def resolve (m : Machine σ) (f : Frame) (below : Stack Frame) : Answer σ :=
  match f.control with
  | .error e => (m, .error e)
  | .ok c =>
    let v := f.resolved c
    let f := f.store 0 v
    done { m with stack := { f with cursor := .finished } :: below } (.resolve f.scope v) (some f)
      m.depth

/-- Evaluate operand `k` of the innermost frame `f`, which is the given node. -/
def call (env : Environment σ) (m : Machine σ) (f : Frame) (below : Stack Frame) (k : Nat) :
    Option Node → Answer σ
  | some (.form a) =>
    let g := Frame.enter a
    done { m with stack := g :: f :: below } (.enter a) (some g) (m.depth + 1)
  | some (.terminal name) =>
    match leafNamed name with
    | .error e => (m, .error e)
    | .ok (.move move) =>
      let (ok, state) := env.advance (.move move) m.state
      let f := f.store k (Value.ofBool ok)
      done { m with state, stack := f.passed k :: below, stats := m.stats.countAction }
        (.act move ok) (some f) m.depth
    | .ok (.sense sensor) =>
      let (v, state) := env.read sensor m.state
      let f := f.store k (some v)
      done { m with state, stack := f.passed k :: below } (.observe sensor v) (some f) m.depth
  | _ => (m, .error (f.scope.refuse .operandUnusable))

/-- Evaluate operand `k` of the innermost frame `f` or leave it out. -/
def visit (env : Environment σ) (m : Machine σ) (f : Frame) (below : Stack Frame) (k : Nat) :
    Answer σ :=
  match f.control with
  | .error e => (m, .error e)
  | .ok c =>
    let n := f.scope.operand? k
    if f.takes c k then m.call env f below k n
    else done { m with stack := f.passed k :: below } (.skip (n.getD .missing)) (some f) m.depth

/-- One step. -/
def step (env : Environment σ) (m : Machine σ) : Answer σ :=
  let m := { m with stats := m.stats.countStep }
  match m.stack with
  | [] => m.beginRound
  | f :: below =>
    match f.cursor with
    | .finished => m.leave env f below
    | .resolving => m.resolve f below
    | .operand k => m.visit env f below k

end Machine

end Stepwise
