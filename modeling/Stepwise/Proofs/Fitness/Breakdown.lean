import Stepwise.Proofs.Fitness.Schedule
import Stepwise.Proofs.Machine.Checked

/-!
# Evaluations that cannot break down

A batch takes much for granted once its programs are validated: that the programs are there, that
their texts can be written and their nodes counted, and that no step fails.  The checked evaluation
`Evaluator.checkedEvaluate` takes nothing for granted and stops where something breaks down.  What it
writes depends on the level of the log.  `Evaluator.checkedPoolAfter` is the same for evaluations
that take turns in any order.

A sound machine makes its steps without a breakdown.  So nothing breaks down in an evaluation of a
valid program, however long it is and whenever it is called off (`checkedPlayOn_eq`).  The same holds
of one turn of a pool (`Pool.InOrder.checkedTurn_eq`) and then of a whole schedule
(`Pool.InOrder.checkedFollow_eq`).  A batch with a program that is not valid gets no further than its
validation (`validateBatch_cases`).
-/

namespace Stepwise.Fitness

variable {σ : Type} {env : Environment σ}

/-! ## One evaluation -/

/-- Play on with checked steps. -/
def checkedPlayOn (level : Log.Level) (env : Environment σ) (cancelled : Nat → σ → Bool) :
    Nat → Nat → Machine σ → Except Breakdown (Ending × Machine σ)
  | left, done, m =>
    if env.finished m.state then .ok (.complete, m)
    else match left with
      | 0 => .ok (.complete, m)
      | left + 1 =>
        if done % checkEvery = 0 && cancelled done m.state then .ok (.cancelled, m)
        else match m.checkedMove level env with
          | .error x => .error x
          | .ok m => checkedPlayOn level env cancelled left (done + 1) m

/-- Play a game with checked steps, and measure the program if the run is complete. -/
def Run.checkedPlay (level : Log.Level) (env : Environment σ) (maxSteps : Int64)
    (cancelled : Nat → σ → Bool) (program : Form) (start : σ) : Except Breakdown (Run σ) := do
  let (ending, final) ←
    checkedPlayOn level env cancelled (budget maxSteps) 0 (Machine.new program start)
  if ending = .complete then
    let _ ← program.measured level
  return { program, start, final, ending }

/-- An evaluation that ended without a failed step. -/
def Ending.Orderly (ending : Ending) : Prop := ∀ x, ending ≠ .failed x

theorem Ending.orderly_complete : Ending.complete.Orderly := by
  intro x h
  cases h

theorem Ending.orderly_cancelled : Ending.cancelled.Orderly := by
  intro x h
  cases h

/-- Nothing breaks down while a sound machine plays on, and no step fails. -/
theorem checkedPlayOn_eq (level : Log.Level) (env : Environment σ) (cancelled : Nat → σ → Bool)
    (left done : Nat) {m : Machine σ} (h : m.Sound) :
    checkedPlayOn level env cancelled left done m = .ok (playOn env cancelled left done m) ∧
      (playOn env cancelled left done m).1.Orderly := by
  induction left generalizing done m with
  | zero =>
      unfold checkedPlayOn playOn
      split
      next => exact ⟨rfl, Ending.orderly_complete⟩
      next => exact ⟨rfl, Ending.orderly_complete⟩
  | succ left ih =>
      obtain ⟨m', t, hstep, hm', hmove⟩ := h.checkedMove_eq env level
      unfold checkedPlayOn playOn
      split
      next => exact ⟨rfl, Ending.orderly_complete⟩
      next =>
          simp only [hstep, hmove]
          split
          next => exact ⟨rfl, Ending.orderly_cancelled⟩
          next => exact ih (done + 1) hm'

theorem Run.checkedPlay_eq (level : Log.Level) (env : Environment σ) (maxSteps : Int64)
    (cancelled : Nat → σ → Bool) {a : Form} (hp : Program a) (start : σ) :
    Run.checkedPlay level env maxSteps cancelled a start =
        .ok (Run.play env maxSteps cancelled a start) ∧
      (Run.play env maxSteps cancelled a start).ending.Orderly := by
  obtain ⟨hplay, horderly⟩ :=
    checkedPlayOn_eq level env cancelled (budget maxSteps) 0 (Machine.Sound.new hp start)
  refine ⟨?_, horderly⟩
  rw [Run.checkedPlay, hplay, hp.measured_eq level]
  show (if _ then _ else _) = _
  split <;> rfl

/-! ## One after another -/

theorem map_ne_error {ε α β : Type} {r : Except ε α} {err : ε} (h : r ≠ .error err) (f : α → β) :
    r.map f ≠ .error err := by
  cases r with
  | error err' => exact fun heq => h (congrArg Except.error (Except.error.inj heq))
  | ok a => nofun

/-- The evaluation of a job, if it has one, ended without a failed step. -/
def Job.Orderly (j : Job σ) : Prop := ∀ r ∈ j.run?, r.ending.Orderly

namespace Job.Orderly

variable {j : Job σ} {n : Nat} {x : Malformed}

theorem outcome_ne (h : j.Orderly) : j.outcome env ≠ .error (.malformed n x) := by
  obtain ⟨k, run?⟩ := j
  cases run? with
  | none => nofun
  | some r =>
      have hending : r.ending.Orderly := h r rfl
      cases hr : r.ending with
      | complete => simp [Job.outcome, hr]
      | cancelled => simp [Job.outcome, hr]
      | failed y => exact absurd hr (hending y)

theorem collect_ne {jobs : List (Job σ)} (h : ∀ j ∈ jobs, j.Orderly) :
    collect env jobs ≠ .error (.malformed n x) := by
  induction jobs with
  | nil => nofun
  | cons j jobs ih =>
      have hrest := ih fun j' hj' => h j' (List.mem_cons_of_mem j hj')
      have hfirst : j.outcome env ≠ .error (.malformed n x) :=
        (h j (List.mem_cons_self ..)).outcome_ne
      rw [collect]
      cases houtcome : j.outcome env with
      | error err =>
          rw [houtcome] at hfirst
          exact fun heq => hfirst (congrArg Except.error (Except.error.inj heq))
      | ok r => exact map_ne_error hrest _

end Job.Orderly

theorem mapM_eq_ok {α β : Type} {f : α → Except Breakdown β} {g : α → β}
    (h : ∀ a, f a = .ok (g a)) (a? : Option α) : a?.mapM f = .ok (a?.map g) := by
  cases a? with
  | none => rfl
  | some a =>
      show (f a).map some = _
      rw [h]
      rfl

/-- Make checked evaluations one after another. -/
def Evaluator.checkedJobs (e : Evaluator σ) (level : Log.Level) (fresh : Nat → Option σ) :
    Nat → Bool → List (Nat × Form) → Except Breakdown (List (Job σ))
  | _, _, [] => .ok []
  | k, stopped, (n, a) :: rest => do
    let run? ← (fresh k).mapM
      (Run.checkedPlay level e.env e.maxSteps (fun _ s => stopped || e.trips s) a)
    let job : Job σ := ⟨n, run?⟩
    let jobs ← e.checkedJobs level fresh (k + 1) (stopped || job.callsOff e) rest
    return job :: jobs

/-- Nothing breaks down in the evaluations of valid programs. -/
theorem Evaluator.checkedJobs_eq (e : Evaluator σ) (level : Log.Level) (fresh : Nat → Option σ)
    {pairs : List (Nat × Form)} (h : ∀ p ∈ pairs, Program p.2) (k : Nat) (stopped : Bool) :
    e.checkedJobs level fresh k stopped pairs = .ok (e.jobs fresh k stopped pairs) ∧
      ∀ j ∈ e.jobs fresh k stopped pairs, j.Orderly := by
  induction pairs generalizing k stopped with
  | nil => exact ⟨rfl, List.forall_mem_nil _⟩
  | cons p pairs ih =>
      obtain ⟨n, a⟩ := p
      have ha : Program a := h (n, a) (List.mem_cons_self ..)
      have hrest := ih fun p hp => h p (List.mem_cons_of_mem _ hp)
      let calledOff : Nat → σ → Bool := fun _ s => stopped || e.trips s
      have hplay := Run.checkedPlay_eq level e.env e.maxSteps calledOff ha
      let run? := (fresh k).map (Run.play e.env e.maxSteps calledOff a)
      have hrun : (fresh k).mapM (Run.checkedPlay level e.env e.maxSteps calledOff a) = .ok run? :=
        mapM_eq_ok (fun s => (hplay s).1) (fresh k)
      have horderly : Job.Orderly ⟨n, run?⟩ := by
        intro r hr
        obtain ⟨s, -, rfl⟩ := Option.map_eq_some_iff.mp hr
        exact (hplay s).2
      obtain ⟨hjobs, hall⟩ := hrest (k + 1) (stopped || Job.callsOff e ⟨n, run?⟩)
      constructor
      · rw [checkedJobs, hrun]
        show (e.checkedJobs level fresh (k + 1) _ pairs >>= _) = _
        rw [hjobs]
        rfl
      · exact List.forall_mem_cons.mpr ⟨horderly, hall⟩

/-! ## In turns -/

/-- How far an evaluation may have come if nothing broke down. -/
inductive Progress.InOrder : Progress σ → Prop where
  | waiting : InOrder .waiting
  | playing {start : σ} {done : Nat} {m : Machine σ} (hm : m.Sound) :
      InOrder (.playing start done m)
  | ended {job : Job σ} (hjob : job.Orderly) : InOrder (.ended job)

namespace Evaluation

/-- Go on with a checked step, and measure the program if there is none to make. -/
def checkedGoOn (e : Evaluator σ) (level : Log.Level) (stopped : Bool) (start : σ) (done : Nat)
    (m : Machine σ) (t : Evaluation σ) : Except Breakdown (Progress σ) :=
  if e.env.finished m.state || budget e.maxSteps ≤ done then
    (t.program.measured level).map fun _ => t.finish start m .complete
  else if done % checkEvery = 0 && (stopped || e.trips m.state) then
    .ok (t.finish start m .cancelled)
  else (m.checkedMove level e.env).map fun m => .playing start (done + 1) m

/-- One turn of an evaluation, with a checked step. -/
def checkedTurn (e : Evaluator σ) (level : Log.Level) (game? : Option σ) (stopped : Bool)
    (t : Evaluation σ) : Except Breakdown (Evaluation σ) :=
  match t.progress with
  | .waiting => .ok { t with progress := t.beginWith game? }
  | .playing start done m =>
    (t.checkedGoOn e level stopped start done m).map fun progress => { t with progress }
  | .ended _ => .ok t

variable {e : Evaluator σ} {t : Evaluation σ}

/-- The program of an evaluation is valid, and nothing broke down so far. -/
structure InOrder (t : Evaluation σ) : Prop where
  program : Program t.program
  progress : t.progress.InOrder

theorem finish_inOrder (start : σ) (m : Machine σ) {ending : Ending} (h : ending.Orderly) :
    (t.finish start m ending).InOrder := by
  refine .ended fun r hr => ?_
  cases hr
  exact h

theorem checkedGoOn_eq (hp : Program t.program) {m : Machine σ} (hm : m.Sound) (level : Log.Level)
    (stopped : Bool) (start : σ) (done : Nat) :
    t.checkedGoOn e level stopped start done m = .ok (t.goOn e stopped start done m) ∧
      (t.goOn e stopped start done m).InOrder := by
  unfold checkedGoOn goOn
  split
  next =>
      rw [hp.measured_eq level]
      exact ⟨rfl, finish_inOrder start m Ending.orderly_complete⟩
  next =>
      split
      next => exact ⟨rfl, finish_inOrder start m Ending.orderly_cancelled⟩
      next =>
          obtain ⟨m', u, hstep, hm', hmove⟩ := hm.checkedMove_eq e.env level
          rw [hstep, hmove]
          exact ⟨rfl, .playing hm'⟩

/-- Nothing breaks down in a turn. -/
theorem InOrder.checkedTurn_eq (h : t.InOrder) (e : Evaluator σ) (level : Log.Level)
    (game? : Option σ) (stopped : Bool) :
    t.checkedTurn e level game? stopped = .ok (t.turn e game? stopped) ∧
      (t.turn e game? stopped).InOrder := by
  obtain ⟨n, a, p⟩ := t
  obtain ⟨hp, hprogress⟩ := h
  cases hprogress with
  | waiting =>
      refine ⟨rfl, hp, ?_⟩
      cases game? with
      | none => exact .ended nofun
      | some start => exact .playing (.new hp start)
  | playing hm =>
      obtain ⟨hgo, horder⟩ := checkedGoOn_eq (e := e) hp hm level stopped _ _
      refine ⟨?_, hp, horder⟩
      show (checkedGoOn ..).map _ = _
      rw [hgo]
      rfl
  | ended hjob => exact ⟨rfl, hp, .ended hjob⟩

theorem InOrder.failure_ne (h : t.InOrder) (e : Evaluator σ) (n : Nat) (x : Malformed) :
    t.failure? e ≠ some (.malformed n x) := by
  obtain ⟨k, a, p⟩ := t
  cases h.progress with
  | waiting => nofun
  | playing => nofun
  | @ended job hjob =>
      have hne : job.outcome e.env ≠ .error (.malformed n x) := hjob.outcome_ne
      unfold failure?
      cases houtcome : job.outcome e.env with
      | error err =>
          rw [houtcome] at hne
          simpa [houtcome] using hne
      | ok r => simp [houtcome]

end Evaluation

namespace Pool

/-- One turn of a pool, with a checked step, if the turn is possible. -/
def checkedTurn (e : Evaluator σ) (level : Log.Level) (fresh : Nat → Option σ) (p : Pool σ)
    (u : Turn) : Except Breakdown (Pool σ) :=
  match p.evaluations[u.place]? with
  | none => .ok p
  | some t =>
    if p.mayMove e.concurrency u.place t then
      (t.checkedTurn e level (fresh p.asked) (u.aware && p.stopped)).map fun moved =>
        { evaluations := p.evaluations.set u.place moved
          asked := if t.isWaiting then p.asked + 1 else p.asked
          stopped := p.stopped || moved.callsOff e
          failure? := p.failure?.or (moved.failure? e) }
    else .ok p

/-- Follow a schedule of checked turns. -/
def checkedFollow (e : Evaluator σ) (level : Log.Level) (fresh : Nat → Option σ) (p : Pool σ)
    (schedule : List Turn) : Except Breakdown (Pool σ) :=
  schedule.foldlM (checkedTurn e level fresh) p

variable {p : Pool σ}

/-- Nothing broke down in a pool so far. -/
structure InOrder (p : Pool σ) : Prop where
  evaluations : ∀ t ∈ p.evaluations, t.InOrder
  failure : ∀ n x, p.failure? ≠ some (.malformed n x)

theorem ofPrograms_inOrder (e : Evaluator σ) {pairs : List (Nat × Form)}
    (h : ∀ q ∈ pairs, Program q.2) : (Pool.ofPrograms e pairs).InOrder where
  evaluations := by
    intro t ht
    obtain ⟨q, hq, rfl⟩ := List.mem_map.mp ht
    exact ⟨h q hq, .waiting⟩
  failure := nofun

/-- Nothing breaks down in a turn. -/
theorem InOrder.checkedTurn_eq (h : p.InOrder) (e : Evaluator σ) (level : Log.Level)
    (fresh : Nat → Option σ) (u : Turn) :
    p.checkedTurn e level fresh u = .ok (p.turn e fresh u) ∧ (p.turn e fresh u).InOrder := by
  unfold checkedTurn turn
  cases ht : p.evaluations[u.place]? with
  | none => exact ⟨rfl, h⟩
  | some t =>
      have hmem : t ∈ p.evaluations := List.mem_of_getElem? ht
      obtain ⟨hturn, hmoved⟩ := (h.evaluations t hmem).checkedTurn_eq e level (fresh p.asked)
        (u.aware && p.stopped)
      simp only [hturn]
      split
      next =>
          refine ⟨rfl, fun t' ht' => ?_, fun n x hfailure => ?_⟩
          · obtain ht' | rfl := List.mem_or_eq_of_mem_set ht'
            · exact h.evaluations t' ht'
            · exact hmoved
          · rw [Option.or_eq_some_iff] at hfailure
            obtain hold | ⟨-, hnew⟩ := hfailure
            · exact h.failure n x hold
            · exact hmoved.failure_ne e n x hnew
      next => exact ⟨rfl, h⟩

/-- Nothing breaks down in a whole schedule. -/
theorem InOrder.checkedFollow_eq (h : p.InOrder) (e : Evaluator σ) (level : Log.Level)
    (fresh : Nat → Option σ) (schedule : List Turn) :
    p.checkedFollow e level fresh schedule = .ok (p.follow e fresh schedule) ∧
      (p.follow e fresh schedule).InOrder := by
  induction schedule generalizing p with
  | nil => exact ⟨rfl, h⟩
  | cons u schedule ih =>
      obtain ⟨hturn, hnext⟩ := h.checkedTurn_eq e level fresh u
      obtain ⟨hrest, hlast⟩ := ih hnext
      refine ⟨?_, hlast⟩
      rw [checkedFollow, List.foldlM_cons, hturn]
      exact hrest

theorem InOrder.outcome_ne (h : p.InOrder) (e : Evaluator σ) (programs : List Form) (n : Nat)
    (x : Malformed) : p.outcome e programs ≠ .error (.malformed n x) := by
  unfold outcome
  cases hfailure : p.failure? with
  | none => nofun
  | some err =>
      intro heq
      exact h.failure n x (hfailure.trans (congrArg some (Except.error.inj heq)))

end Pool

/-! ## Batches -/

theorem validateProgram_eq_ok_iff {p : Option Form} {a : Form} :
    validateProgram p = .ok a ↔ p = some a ∧ Program a := by
  cases p with
  | none => simp [validateProgram]
  | some b =>
      rw [validateProgram, ← Form.validate_eq_ok_iff]
      cases hb : b.validate with
      | error x =>
          constructor
          · intro hab
            cases hab
          · rintro ⟨hab, hvalid⟩
            cases hab
            rw [hb] at hvalid
            cases hvalid
      | ok u =>
          constructor
          · intro hab
            cases hab
            exact ⟨rfl, hb⟩
          · rintro ⟨hab, -⟩
            cases hab
            rfl

/-- All programs of a batch are valid, or the batch is refused for the first that is not. -/
theorem validateBatch_cases (programs : List (Option Form)) (k : Nat) :
    (∃ forms : List Form, programs = forms.map some ∧ ∀ a ∈ forms, Program a) ∨
      ∃ n p x, programs[n]? = some p ∧ validateProgram p = .error x ∧
        (∀ q ∈ programs.take n, ∃ a, validateProgram q = .ok a) ∧
        validateBatch k programs = .error (.malformed (k + n) x) := by
  induction programs generalizing k with
  | nil => exact .inl ⟨[], rfl, List.forall_mem_nil _⟩
  | cons p programs ih =>
      cases hp : validateProgram p with
      | error x =>
          refine .inr ⟨0, p, x, rfl, hp, List.forall_mem_nil _, ?_⟩
          rw [validateBatch, hp]
          rfl
      | ok a =>
          obtain ⟨rfl, ha⟩ := validateProgram_eq_ok_iff.mp hp
          rcases ih (k + 1) with ⟨forms, rfl, hforms⟩ | ⟨n, q, x, hq, hx, hbefore, hbatch⟩
          · exact .inl ⟨a :: forms, rfl, List.forall_mem_cons.mpr ⟨ha, hforms⟩⟩
          · refine .inr ⟨n + 1, q, x, hq, hx, List.forall_mem_cons.mpr ⟨⟨a, hp⟩, hbefore⟩, ?_⟩
            rw [validateBatch, hp]
            simp only [hbatch]
            rw [Nat.add_assoc, Nat.add_comm 1 n]
            rfl

/-- Validate programs, the first with number `n`. -/
def checkedValidateBatch :
    Nat → List (Option Form) → Except Breakdown (Except BatchError Unit)
  | _, [] => .ok (.ok ())
  | n, none :: _ => .ok (.error (.malformed n ⟨some .missing, .rootNotForm⟩))
  | n, some a :: ps => do
    match ← checkedValidateAll [a] with
    | .error e => return .error (.malformed n e)
    | .ok () => checkedValidateBatch (n + 1) ps

theorem checkedValidateBatch_eq (programs : List (Option Form)) (n : Nat) :
    checkedValidateBatch n programs = .ok ((validateBatch n programs).map fun _ => ()) := by
  induction programs generalizing n with
  | nil => rfl
  | cons p programs ih =>
      cases p with
      | none => rfl
      | some a =>
          rw [checkedValidateBatch, checkedValidateAll_eq, validateBatch, validateProgram,
            Form.validate]
          cases validateAll [a] with
          | error e => rfl
          | ok u =>
              refine (ih (n + 1)).trans ?_
              simp only [Except.map]
              cases validateBatch (n + 1) programs <;> rfl

theorem mapM_keyed {programs : List Form} (h : ∀ a ∈ programs, Program a) :
    (programs.map some).mapM Form.keyed = .ok programs := by
  induction programs with
  | nil => rfl
  | cons a programs ih =>
      rw [List.map_cons, List.mapM_cons, (h a (List.mem_cons_self ..)).keyed_eq,
        ih fun b hb => h b (List.mem_cons_of_mem a hb)]
      rfl

namespace Evaluator

/-- Evaluate a batch of programs and check all that is needed. -/
def checkedEvaluate (e : Evaluator σ) (level : Log.Level) (programs : List (Option Form)) :
    Except Breakdown (Batch σ) :=
  match e.supply with
  | none => .ok (.refused .noSupply)
  | some fresh => do
    match ← checkedValidateBatch 0 programs with
    | .error err => return .refused err
    | .ok () =>
      let valid ← programs.mapM Form.keyed
      let jobs ← e.checkedJobs level fresh 0 e.cancelled (distinct valid)
      return {
        jobs
        outcome := (collect e.env jobs).map (handOut valid)
        opening := [openingRecord valid.length jobs.length] }

/-- The pool of a batch of valid programs after a schedule of checked turns. -/
def checkedPoolAfter (e : Evaluator σ) (level : Log.Level) (fresh : Nat → Option σ)
    (programs : List Form) (schedule : List Turn) : Except Breakdown (Pool σ) :=
  (Pool.ofPrograms e (distinct programs)).checkedFollow e level fresh schedule

variable {e : Evaluator σ} {fresh : Nat → Option σ} {forms : List Form}

/-- A batch of valid programs is evaluated without a breakdown, and not refused. -/
theorem checkedEvaluate_of_valid (hsupply : e.supply = some fresh) (h : ∀ a ∈ forms, Program a)
    (level : Log.Level) :
    e.checkedEvaluate level (forms.map some) = .ok (e.evaluate (forms.map some)) ∧
      ∀ n x, (e.evaluate (forms.map some)).outcome ≠ .error (.malformed n x) := by
  have hpairs : ∀ q ∈ distinct forms, Program q.2 :=
    fun q hq => h q.2 ((mem_distinct_iff h).mp hq).1
  obtain ⟨hjobs, horderly⟩ := e.checkedJobs_eq level fresh hpairs 0 e.cancelled
  rw [checkedEvaluate, evaluate, hsupply]
  simp only [checkedValidateBatch_eq, validateBatch_eq h, mapM_keyed h]
  constructor
  · show (e.checkedJobs level fresh 0 e.cancelled (distinct forms) >>= _) = _
    rw [hjobs]
    rfl
  · intro n x
    exact map_ne_error (Job.Orderly.collect_ne horderly) _

/-- A batch whose programs are not all valid is refused before anything is made. -/
theorem evaluate_of_refused (hsupply : e.supply = some fresh) {programs : List (Option Form)}
    {err : BatchError} (h : validateBatch 0 programs = .error err) (level : Log.Level) :
    e.evaluate programs = .refused err ∧ e.checkedEvaluate level programs = .ok (.refused err) := by
  constructor
  · rw [evaluate, hsupply]
    simp only [h]
  · rw [checkedEvaluate, hsupply]
    simp only [checkedValidateBatch_eq, h]
    rfl

/-- A batch is evaluated as a whole or not at all.

There is a supply of games, which may run dry, and the batch may be called off at any time, from
outside or by a game.  The programs may be any trees, with holes in them or missing altogether.

Nothing breaks down, at any level of the log.  If some program is refused, the batch fails with the
refusal of the first such program and its number, and no game is asked for.  If no program is
refused, the batch does not fail for a malformed program.  That is so in whatever order the
evaluations take turns, and nothing breaks down in any of their turns. -/
theorem evaluate_all_or_nothing (hsupply : e.supply = some fresh) (level : Log.Level)
    (programs : List (Option Form)) :
    e.checkedEvaluate level programs = .ok (e.evaluate programs) ∧
    ((∃ p ∈ programs, ∃ x, validateProgram p = .error x) →
      ∃ n p x, programs[n]? = some p ∧ validateProgram p = .error x ∧
        (∀ q ∈ programs.take n, ∃ a, validateProgram q = .ok a) ∧
        (e.evaluate programs).outcome = .error (.malformed n x) ∧
        (BatchError.malformed n x).message = "program " ++ toString n ++ ": " ++ x.message ∧
        (e.evaluate programs).created = 0) ∧
    ((∀ p ∈ programs, ∃ a, validateProgram p = .ok a) →
      (∀ n x, (e.evaluate programs).outcome ≠ .error (.malformed n x)) ∧
      ∃ forms : List Form, programs = forms.map some ∧ ∀ schedule : List Turn,
        e.checkedPoolAfter level fresh forms schedule = .ok (e.poolAfter fresh forms schedule) ∧
        (∀ n x, (e.poolAfter fresh forms schedule).outcome e forms ≠ .error (.malformed n x)) ∧
        ∃ more, (e.poolAfter fresh forms (schedule ++ more)).settled = true) := by
  rcases validateBatch_cases programs 0 with
    ⟨forms, rfl, hforms⟩ | ⟨n, p, x, hp, hx, hbefore, hbatch⟩
  · obtain ⟨hchecked, hsound⟩ := checkedEvaluate_of_valid hsupply hforms level
    refine ⟨hchecked, ?_, fun _ => ⟨hsound, forms, rfl, fun schedule => ?_⟩⟩
    · rintro ⟨p, hp, x, hx⟩
      obtain ⟨a, ha, rfl⟩ := List.mem_map.mp hp
      rw [validateProgram_eq_ok_iff.mpr ⟨rfl, hforms a ha⟩] at hx
      cases hx
    · have hpairs : ∀ q ∈ distinct forms, Program q.2 :=
        fun q hq => hforms q.2 ((mem_distinct_iff hforms).mp hq).1
      obtain ⟨hfollow, horder⟩ :=
        (Pool.ofPrograms_inOrder e hpairs).checkedFollow_eq e level fresh schedule
      exact ⟨hfollow, horder.outcome_ne e forms, e.exists_settled_after fresh forms schedule⟩
  · rw [Nat.zero_add] at hbatch
    obtain ⟨hevaluate, hchecked⟩ := evaluate_of_refused hsupply hbatch level
    rw [hevaluate]
    refine ⟨hchecked, fun _ => ⟨n, p, x, hp, hx, hbefore, rfl, rfl, rfl⟩, fun hall => ?_⟩
    obtain ⟨a, ha⟩ := hall p (List.mem_of_getElem? hp)
    rw [hx] at ha
    cases ha

/-- A program whose second operand is missing. -/
def gap : Form := Form.prog2 (Leaf.move .left).node .missing

theorem validateProgram_gap :
    validateProgram (some gap) = .error (gap.refuse (.operandMissing 2)) := by
  rw [validateProgram, Form.validate, validateAll]
  rfl

/-- Two of three programs are refused, and the batch fails for the first of them.  With one game for
two valid programs, a batch fails too, but not for a malformed program. -/
theorem evaluate_all_or_nothing_gap :
    let e : Evaluator Scripted := { env := scriptedGame, supply := some oneGame }
    let batch := [some duelist, some gap, none]
    e.checkedEvaluate Log.Level.debug batch = .ok (e.evaluate batch) ∧
      (e.evaluate batch).outcome = .error (.malformed 1 (gap.refuse (.operandMissing 2))) ∧
      (e.evaluate batch).created = 0 ∧
      ∀ n x, (e.evaluate [some duelist, some sway]).outcome ≠ .error (.malformed n x) := by
  intro e batch
  have hduelist : validateProgram (some duelist) = .ok duelist :=
    validateProgram_eq_ok_iff.mpr ⟨rfl, Form.validate_eq_ok_iff.mp duelist_valid⟩
  have hsway : validateProgram (some sway) = .ok sway :=
    validateProgram_eq_ok_iff.mpr ⟨rfl, Form.validate_eq_ok_iff.mp sway_valid⟩
  obtain ⟨hchecked, hrefused, -⟩ :=
    evaluate_all_or_nothing (e := e) rfl Log.Level.debug batch
  obtain ⟨n, p, x, hp, hx, hbefore, houtcome, -, hcreated⟩ :=
    hrefused ⟨none, by simp [batch], _, rfl⟩
  obtain ⟨-, -, haccepted⟩ :=
    evaluate_all_or_nothing (e := e) rfl Log.Level.debug [some duelist, some sway]
  refine ⟨hchecked, ?_, hcreated, (haccepted fun p hp => ?_).1⟩
  · match n, hp with
    | 0, hp =>
        cases hp
        rw [hduelist] at hx
        cases hx
    | 1, hp =>
        cases hp
        rw [validateProgram_gap] at hx
        cases hx
        exact houtcome
    | n + 2, _ =>
        obtain ⟨a, ha⟩ := hbefore (some gap) (by simp [batch])
        rw [validateProgram_gap] at ha
        cases ha
  · simp only [List.mem_cons, List.not_mem_nil, or_false] at hp
    rcases hp with rfl | rfl
    · exact ⟨_, hduelist⟩
    · exact ⟨_, hsway⟩

end Evaluator

end Stepwise.Fitness
