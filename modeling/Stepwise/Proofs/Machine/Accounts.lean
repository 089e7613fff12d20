import Stepwise.Game.Recorder
import Stepwise.Proofs.Trial

/-!
# The counters agree with a recorder

A recorder keeps the actions that a game is told.  It does not change the game, so a machine
does the same with it and without it (`Environment.recorded_covers`), also where steps fail.

A step counts itself and what it tells the game (`Machine.stats_of_step`).  A step that fails
tells it nothing.  So after any number of steps, failed ones included, the counters can be read
off from the answers of the steps (`Machine.stats_of_answers`), and so can what the game
remembers (`Machine.remembers_answers`).  The two are compared in
`Machine.accounts_of_recorder`.
-/

namespace Stepwise

variable {σ τ : Type} {env : Environment σ}

namespace Machine

/-! ## Operations in a game that covers another -/

section Covers

variable {env' : Environment τ} {φ : τ → σ}

theorem untilTick_mapState (h : env'.Covers env φ) (fuel : Nat) (m : Machine τ) :
    untilTick env fuel (m.mapState φ) =
      ((untilTick env' fuel m).1.mapState φ, (untilTick env' fuel m).2) := by
  induction fuel generalizing m with
  | zero => rfl
  | succ fuel ih =>
      rw [untilTick, untilTick, step_mapState h]
      obtain ⟨m', r⟩ := m.step env'
      cases r with
      | error e => rfl
      | ok t =>
          simp only
          split
          · rfl
          · exact ih m'

theorem perform_mapState (h : env'.Covers env φ) (m : Machine τ) (op : Operation) :
    (m.mapState φ).perform env op = (m.perform env' op).mapState φ := by
  cases op with
  | step => rw [perform, step_mapState h, perform]
  | reset => rfl
  | runTick =>
      show ((m.mapState φ).runTick env).1 = (m.runTick env').1.mapState φ
      rw [runTick_fst, runTick_fst]
      exact congrArg Prod.fst (untilTick_mapState h m.stepBound m)

theorem performAll_mapState (h : env'.Covers env φ) (m : Machine τ) (ops : List Operation) :
    (m.mapState φ).performAll env ops = (m.performAll env' ops).mapState φ := by
  induction ops generalizing m with
  | nil => rfl
  | cons op ops ih =>
      rw [performAll_cons, performAll_cons, perform_mapState h]
      exact ih _

end Covers

/-! ## The answers of steps -/

/-- The answers of the next `n` steps.  A step that fails does not keep the others from being
made. -/
def answers (env : Environment σ) : Nat → Machine σ → List (Except Malformed Transition)
  | 0, _ => []
  | n + 1, m => (m.step env).2 :: answers env n (m.step env).1

/-- Did the step answer that the game advanced? -/
def ticked : Except Malformed Transition → Bool
  | .ok t => t.event.charges
  | .error _ => false

/-- What a step told the game, which is nothing if it failed. -/
def toldBy : Except Malformed Transition → List Action
  | .ok t => t.event.told
  | .error _ => []

theorem length_toldBy (r : Except Malformed Transition) :
    (toldBy r).length = if ticked r then 1 else 0 := by
  cases r with
  | error e => rfl
  | ok t => exact t.event.length_told

/-- Only a step that charges a tick tells the game anything, and then one action. -/
theorem countP_ticked (rs : List (Except Malformed Transition)) :
    rs.countP ticked = (rs.flatMap toldBy).length := by
  induction rs with
  | nil => rfl
  | cons r rs ih =>
      rw [List.flatMap_cons, List.length_append, length_toldBy, List.countP_cons, ih, Nat.add_comm]

variable (m : Machine σ)

/-- A step counts itself and what it tells the game, also if it fails. -/
theorem stats_of_step : (m.step env).1.stats = m.stats.after 1 (toldBy (m.step env).2) := by
  cases hs : m.step env with
  | mk m' r =>
      cases r with
      | error e =>
          rw [eq_of_step_error hs]
          simp [Stats.countStep, Stats.after, toldBy]
      | ok t =>
          rw [(rule_of_step hs).2.1]
          exact Replay.counters_eq t.event m.stats

theorem remembers_step {actions : σ → List Action} (h : env.Remembers actions) :
    actions (m.step env).1.state = actions m.state ++ toldBy (m.step env).2 := by
  cases hs : m.step env with
  | mk m' r =>
      cases r with
      | error e =>
          rw [eq_of_step_error hs]
          exact (List.append_nil _).symm
      | ok t => exact (rule_of_step hs).1.remembers h

/-- The counters after `n` steps are those that the answers of the steps give. -/
theorem stats_of_answers (n : Nat) :
    (m.afterSteps env n).stats = m.stats.after n ((m.answers env n).flatMap toldBy) := by
  induction n generalizing m with
  | zero => exact m.stats.after_zero.symm
  | succ n ih =>
      rw [afterSteps_succ, ih, stats_of_step, Stats.after_after, answers, List.flatMap_cons,
        Nat.add_comm]

theorem remembers_answers {actions : σ → List Action} (h : env.Remembers actions) (n : Nat) :
    actions (m.afterSteps env n).state =
      actions m.state ++ (m.answers env n).flatMap toldBy := by
  induction n generalizing m with
  | zero => exact (List.append_nil _).symm
  | succ n ih =>
      rw [afterSteps_succ, ih, m.remembers_step h, List.append_assoc, answers, List.flatMap_cons]

theorem length_answers (n : Nat) : (m.answers env n).length = n := by
  induction n generalizing m with
  | zero => rfl
  | succ n ih => rw [answers, List.length_cons, ih]

theorem answers_mapState {env' : Environment τ} {φ : τ → σ} (h : env'.Covers env φ)
    (m : Machine τ) (n : Nat) : (m.mapState φ).answers env n = m.answers env' n := by
  induction n generalizing m with
  | zero => rfl
  | succ n ih => rw [answers, answers, step_mapState h, ih]

end Machine

/-! ## Counting actions -/

theorem Event.mem_told {e : Event} {a : Action} (h : a ∈ e.told) :
    a = .none ∨ ∃ v, a = .move v := by
  cases e with
  | act v ok =>
      obtain rfl := List.mem_singleton.mp h
      exact .inr ⟨v, rfl⟩
  | round => exact .inl (List.mem_singleton.mp h)
  | _ => cases h

theorem Machine.mem_toldBy {r : Except Malformed Transition} {a : Action}
    (h : a ∈ Machine.toldBy r) : a = .none ∨ ∃ v, a = .move v := by
  cases r with
  | error e => cases h
  | ok t => exact Event.mem_told h

theorem length_eq_count_none_add (as : List Action) :
    as.length = as.count .none + as.countP (· ≠ .none) := by
  rw [List.length_eq_countP_add_countP (· == Action.none)]
  simp [List.count]

/-- The ticks counted from nothing are the rounds and the moves. -/
theorem Stats.ticks_after (n : Nat) (as : List Action) :
    (Stats.after {} n as).ticks = (Stats.after {} n as).rounds + (Stats.after {} n as).actions := by
  simp only [Stats.after, Int64.zero_add]
  rw [length_eq_count_none_add, Int64.ofNat_add]

/-- Where there are no actions outside the vocabulary, those that do something are the moves. -/
theorem countP_ne_none (as : List Action) (h : ∀ a ∈ as, a = .none ∨ ∃ v, a = .move v) :
    as.countP (· ≠ .none) =
      as.count (.move .left) + as.count (.move .right) + as.count (.move .shoot) := by
  induction as with
  | nil => rfl
  | cons a as ih =>
      obtain ⟨ha, has⟩ := List.forall_mem_cons.mp h
      rw [List.countP_cons, ih has]
      simp only [List.count_cons]
      rcases ha with rfl | ⟨v, rfl⟩
      · simp
      · cases v <;> simp <;> omega

/-! ## Recorders -/

theorem Environment.recorded_covers (env : Environment σ) :
    env.recorded.Covers env Recorded.state where
  advance a r := rfl
  read x r := by cases x <;> rfl

theorem Environment.recorded_remembers (env : Environment σ) :
    env.recorded.Remembers Recorded.actions where
  advance a r := List.reverse_cons
  read x r := by cases x <;> rfl

theorem Recorded.count_eq (r : Recorded σ) (a : Action) : r.count a = r.actions.count a :=
  List.count_reverse.symm

/-- What a machine counts is what a recorder writes down, since the machine was made or last
reset, whatever the program is and whether or not steps fail.

A new machine is as if reset, so `start` is any machine at such a moment.  After `n` steps the
steps counted are `n`, those that failed included.  The ticks are the rounds and the moves
together, and as many as the steps that answered that the game advanced.  The recorder has as
many new actions: one that does nothing for every round, and one that does something for every
move.

The recorder does not show: at every moment the machine in the game without a recorder has the
same frames and counters, and its next step has the same answer. -/
theorem Machine.accounts_of_recorder (env : Environment σ) (program : Form) (r : Recorded σ) :
    (Machine.new program r).reset = Machine.new program r ∧
    (∀ (earlier : List Operation) (n : Nat),
      let start := ((Machine.new program r).performAll env.recorded earlier).reset
      let m := start.afterSteps env.recorded n
      ∃ appended : List Action,
        m.state.actions = start.state.actions ++ appended ∧
        (∀ a, m.state.count a = start.state.count a + appended.count a) ∧
        (start.answers env.recorded n).length = n ∧
        m.stats.steps = Int64.ofNat n ∧
        m.stats.ticks = m.stats.rounds + m.stats.actions ∧
        m.stats.ticks = Int64.ofNat ((start.answers env.recorded n).countP ticked) ∧
        (start.answers env.recorded n).countP ticked = appended.length ∧
        m.stats.rounds = Int64.ofNat (appended.count .none) ∧
        m.stats.actions = Int64.ofNat (appended.count (.move .left) +
          appended.count (.move .right) + appended.count (.move .shoot)) ∧
        (start.mapState Recorded.state).answers env n = start.answers env.recorded n) ∧
    ∀ ops : List Operation,
      let m := (Machine.new program r).performAll env.recorded ops
      let bare := (Machine.new program r.state).performAll env ops
      m.program = bare.program ∧ m.stack = bare.stack ∧ m.stats = bare.stats ∧
        m.state.state = bare.state ∧ (m.step env.recorded).2 = (bare.step env).2 := by
  refine ⟨rfl, fun earlier n => ?_, fun ops => ?_⟩
  · intro start m
    have hactions := start.remembers_answers env.recorded_remembers n
    have hstats : m.stats = Stats.after {} n ((start.answers env.recorded n).flatMap toldBy) :=
      start.stats_of_answers n
    have hcount := countP_ticked (start.answers env.recorded n)
    generalize htold : (start.answers env.recorded n).flatMap toldBy = appended at *
    have hmoves := countP_ne_none appended fun a ha => by
      rw [← htold] at ha
      obtain ⟨answer, -, ha⟩ := List.mem_flatMap.mp ha
      exact mem_toldBy ha
    refine ⟨appended, hactions, fun a => ?_, start.length_answers n, ?_, ?_, ?_, hcount, ?_, ?_,
      answers_mapState env.recorded_covers start n⟩
    · rw [Recorded.count_eq, Recorded.count_eq, hactions, List.count_append]
    · simp [hstats, Stats.after]
    · rw [hstats, Stats.ticks_after]
    · simp [hstats, Stats.after, hcount]
    · simp [hstats, Stats.after]
    · simp [hstats, Stats.after, ← hmoves]
  · intro m bare
    have hm : bare = m.mapState Recorded.state :=
      performAll_mapState env.recorded_covers (Machine.new program r) ops
    rw [hm, step_mapState env.recorded_covers]
    exact ⟨rfl, rfl, rfl, rfl, rfl⟩

end Stepwise
