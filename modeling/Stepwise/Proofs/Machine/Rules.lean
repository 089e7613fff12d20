import Stepwise.Machine.Replay
import Stepwise.Proofs.Tree.Language

/-!
# The rules of the stepping machine

What one step can do is said once, by eight rules on the pending frames and the state
of the game.  `Rule env program stack s e stack' s'` reads: from the frames `stack` and
the state `s`, a step that reports the event `e` leads to `stack'` and `s'`.

A step of a machine that succeeds follows a rule (`Machine.rule_of_step`), and every
rule is followed by a step (`Machine.step_of_rule`).  Apart from frames and game a step
only counts, as the event says.  A step that fails counts itself and does nothing else
(`Machine.eq_of_step_error`).

`Runs` follows rules one after another, and `Machine.Steps` follows steps.  The first
speaks of frames and events only, so that a run can be built up from runs of its parts.
`Machine.steps_of_runs` turns it into steps of a machine.
-/

namespace Stepwise

variable {σ : Type} {env : Environment σ} {program : Form}

/-- The frame is about to evaluate operand `k`, or to leave it out, under `c`. -/
structure Frame.At (f : Frame) (c : Control) (k : Nat) : Prop where
  cursor : f.cursor = .operand k
  control : f.control = .ok c

/-- The frame after it got its result `v`. -/
def Frame.finishWith (f : Frame) (v : Value) : Frame := { f.store 0 v with cursor := .finished }

/-- The frame after operand `k` got the value `v`. -/
def Frame.fill (f : Frame) (k : Nat) (v : Value) : Frame := (f.store k v).passed k

/-- One step of a machine with the given program, seen from its frames and its game. -/
inductive Rule (env : Environment σ) (program : Form) :
    Stack Frame → σ → Event → Stack Frame → σ → Prop where
  /-- A round begins. -/
  | start {s : σ} : Rule env program [] s (.start program) [.enter program] s
  /-- An operand that is a form gets a frame of its own. -/
  | enter {f : Frame} {below : Stack Frame} {s : σ} {c : Control} {k : Nat} {a : Form} :
      f.At c k → f.takes c k = true → f.scope.operand? k = some (.form a) →
      Rule env program (f :: below) s (.enter a) (.enter a :: f :: below) s
  /-- An operand that is a move is made. -/
  | act {f : Frame} {below : Stack Frame} {s s' : σ} {c : Control} {k : Nat} {v : Move}
      {ok : Bool} :
      f.At c k → f.takes c k = true → f.scope.operand? k = some (Leaf.move v).node →
      env.advance (.move v) s = (ok, s') →
      Rule env program (f :: below) s (.act v ok) (f.fill k (Value.ofBool ok) :: below) s'
  /-- An operand that is a sensor is read. -/
  | observe {f : Frame} {below : Stack Frame} {s s' : σ} {c : Control} {k : Nat} {x : Sensor}
      {v : Int64} :
      f.At c k → f.takes c k = true → f.scope.operand? k = some (Leaf.sense x).node →
      env.read x s = (v, s') →
      Rule env program (f :: below) s (.observe x v) (f.fill k (some v) :: below) s'
  /-- An operand that the operator does not want is left out, whatever it is. -/
  | skip {f : Frame} {below : Stack Frame} {s : σ} {c : Control} {k : Nat} :
      f.At c k → f.takes c k = false →
      Rule env program (f :: below) s (.skip ((f.scope.operand? k).getD .missing))
        (f.passed k :: below) s
  /-- The result of a form is computed. -/
  | resolve {f : Frame} {below : Stack Frame} {s : σ} {c : Control} :
      f.cursor = .resolving → f.control = .ok c →
      Rule env program (f :: below) s (.resolve f.scope (f.resolved c))
        (f.finishWith (f.resolved c) :: below) s
  /-- A result is handed to the frame below. -/
  | handBack {f g : Frame} {outer : Stack Frame} {s : σ} :
      f.cursor = .finished →
      Rule env program (f :: g :: outer) s (.handBack f.scope f.result)
        (g.fill g.operandNumber f.result :: outer) s
  /-- The round is over, and a tick passes in which nothing is done. -/
  | round {f : Frame} {s s' : σ} {ok : Bool} :
      f.cursor = .finished → env.advance .none s = (ok, s') →
      Rule env program [f] s (.round f.scope f.result) [] s'

/-! ## Steps and rules -/

namespace Machine

/-- The machine after a step that reported `e` and left these frames and this game. -/
def moved (m : Machine σ) (e : Event) (stack : Stack Frame) (s : σ) : Machine σ :=
  { m with state := s, stack, stats := Replay.counters e m.stats }

/-- A step that succeeds follows a rule and counts what the event says. -/
theorem rule_of_step {m m' : Machine σ} {t : Transition} (h : m.step env = (m', .ok t)) :
    Rule env m.program m.stack m.state t.event m'.stack m'.state ∧
      m' = m.moved t.event m'.stack m'.state ∧ t.pending = m'.stack := by
  obtain ⟨program, s, stack, stats⟩ := m
  cases stack with
  | nil =>
      cases h
      exact ⟨.start, rfl, rfl⟩
  | cons f below =>
      cases hcur : f.cursor with
      | operand k =>
          simp only [step, hcur, visit] at h
          cases hc : f.control with
          | error e => rw [hc] at h; cases h
          | ok c =>
              have hat : f.At c k := ⟨hcur, hc⟩
              simp only [hc] at h
              cases htakes : f.takes c k with
              | false =>
                  simp only [htakes, Bool.false_eq_true, if_false] at h
                  cases h
                  exact ⟨.skip hat htakes, rfl, rfl⟩
              | true =>
                  simp only [htakes, if_true] at h
                  cases hn : f.scope.operand? k with
                  | none => rw [hn] at h; cases h
                  | some n =>
                      rw [hn] at h
                      cases n with
                      | missing => cases h
                      | form a =>
                          cases h
                          exact ⟨.enter hat htakes hn, rfl, rfl⟩
                      | terminal name =>
                          simp only [call] at h
                          cases hl : leafNamed name with
                          | error e => rw [hl] at h; cases h
                          | ok l =>
                              obtain rfl := leafNamed_eq_ok_iff.mp hl
                              rw [hl] at h
                              cases l with
                              | move v =>
                                  cases h
                                  exact ⟨.act hat htakes hn rfl, rfl, rfl⟩
                              | sense x =>
                                  cases h
                                  exact ⟨.observe hat htakes hn rfl, rfl, rfl⟩
      | resolving =>
          simp only [step, hcur, resolve] at h
          cases hc : f.control with
          | error e => rw [hc] at h; cases h
          | ok c =>
              rw [hc] at h
              cases h
              exact ⟨.resolve hcur hc, rfl, rfl⟩
      | finished =>
          simp only [step, hcur] at h
          cases below with
          | nil =>
              cases h
              exact ⟨.round hcur rfl, rfl, rfl⟩
          | cons g outer =>
              cases h
              exact ⟨.handBack hcur, rfl, rfl⟩

/-- Every rule is followed by a step. -/
theorem step_of_rule {m : Machine σ} {e : Event} {stack : Stack Frame} {s : σ}
    (h : Rule env m.program m.stack m.state e stack s) :
    ∃ context, m.step env = (m.moved e stack s, .ok ⟨e, context, stack.length, stack⟩) := by
  obtain ⟨program, s₀, stack₀, stats⟩ := m
  simp only at h
  cases h with
  | start => exact ⟨_, rfl⟩
  | enter hat htakes hn =>
      simp only [step, hat.cursor, visit, hat.control, htakes, hn, if_true, call]
      exact ⟨_, rfl⟩
  | act hat htakes hn hadv =>
      simp only [step, hat.cursor, visit, hat.control, htakes, hn, if_true, call, Leaf.node,
        leafNamed_name, hadv]
      exact ⟨_, rfl⟩
  | observe hat htakes hn hread =>
      simp only [step, hat.cursor, visit, hat.control, htakes, hn, if_true, call, Leaf.node,
        leafNamed_name, hread]
      exact ⟨_, rfl⟩
  | skip hat htakes =>
      simp only [step, hat.cursor, visit, hat.control, htakes, Bool.false_eq_true, if_false]
      exact ⟨_, rfl⟩
  | resolve hcur hc =>
      simp only [step, hcur, Machine.resolve, hc]
      exact ⟨_, rfl⟩
  | handBack hcur =>
      simp only [step, hcur, leave]
      exact ⟨_, rfl⟩
  | round hcur hadv =>
      simp only [step, hcur, leave, hadv]
      exact ⟨_, rfl⟩

theorem program_of_step {m m' : Machine σ} {t : Transition} (h : m.step env = (m', .ok t)) :
    m'.program = m.program := by
  rw [(rule_of_step h).2.1]
  rfl

/-- A step that fails is counted and does nothing else. -/
theorem eq_of_step_error {m m' : Machine σ} {e : Malformed} (h : m.step env = (m', .error e)) :
    m' = { m with stats := m.stats.countStep } := by
  obtain ⟨program, s, stack, stats⟩ := m
  cases stack with
  | nil => cases h
  | cons f below =>
      cases hcur : f.cursor with
      | operand k =>
          simp only [step, hcur, visit] at h
          split at h
          next => exact (congrArg Prod.fst h).symm
          next =>
              split at h
              next =>
                  unfold call at h
                  split at h
                  next => cases h
                  next =>
                      split at h
                      next => exact (congrArg Prod.fst h).symm
                      next => cases h
                      next => cases h
                  next => exact (congrArg Prod.fst h).symm
              next => cases h
      | resolving =>
          simp only [step, hcur, resolve] at h
          split at h
          next => exact (congrArg Prod.fst h).symm
          next => cases h
      | finished =>
          simp only [step, hcur] at h
          cases below with
          | nil => cases h
          | cons g outer => cases h

/-- A step succeeds or fails, and a machine whose frames follow no rule fails. -/
theorem step_fails_of_stuck {m : Machine σ}
    (h : ∀ e stack s, ¬ Rule env m.program m.stack m.state e stack s) :
    ∃ err, m.step env = ({ m with stats := m.stats.countStep }, .error err) := by
  cases hs : m.step env with
  | mk m' r =>
      cases r with
      | ok t => exact absurd (rule_of_step hs).1 (h _ _ _)
      | error err => exact ⟨err, by rw [eq_of_step_error hs]⟩

end Machine

/-! ## Runs -/

/-- Rules followed one after another, with the events they report. -/
inductive Runs (env : Environment σ) (program : Form) :
    Stack Frame → σ → List Event → Stack Frame → σ → Prop where
  | refl {stack : Stack Frame} {s : σ} : Runs env program stack s [] stack s
  | step {stack₁ stack₂ stack₃ : Stack Frame} {s₁ s₂ s₃ : σ} {e : Event} {es : List Event} :
      Rule env program stack₁ s₁ e stack₂ s₂ → Runs env program stack₂ s₂ es stack₃ s₃ →
      Runs env program stack₁ s₁ (e :: es) stack₃ s₃

namespace Runs

variable {stack₁ stack₂ stack₃ : Stack Frame} {s₁ s₂ s₃ : σ} {e : Event} {es es' : List Event}

theorem one (h : Rule env program stack₁ s₁ e stack₂ s₂) :
    Runs env program stack₁ s₁ [e] stack₂ s₂ := .step h .refl

theorem trans (h : Runs env program stack₁ s₁ es stack₂ s₂)
    (h' : Runs env program stack₂ s₂ es' stack₃ s₃) :
    Runs env program stack₁ s₁ (es ++ es') stack₃ s₃ := by
  induction h with
  | refl => exact h'
  | step hr _ ih => exact .step hr (ih h')

end Runs

namespace Machine

/-- Steps of a machine that all succeed, with what they report. -/
inductive Steps (env : Environment σ) : Machine σ → List Transition → Machine σ → Prop where
  | refl {m : Machine σ} : Steps env m [] m
  | step {m₁ m₂ m₃ : Machine σ} {t : Transition} {ts : List Transition} :
      m₁.step env = (m₂, .ok t) → Steps env m₂ ts m₃ → Steps env m₁ (t :: ts) m₃

/-- The machine after a run with the events `es`, which ends with the frames `stack` and the game
in state `s`. -/
def movedAll (m : Machine σ) (es : List Event) (stack : Stack Frame) (s : σ) : Machine σ :=
  { m with state := s, stack, stats := es.foldl (fun stats e => Replay.counters e stats) m.stats }

/-- A run of the rules is a run of the machine. -/
theorem steps_of_runs {stack : Stack Frame} {s : σ} {es : List Event} {m : Machine σ}
    (h : Runs env m.program m.stack m.state es stack s) :
    ∃ ts, Steps env m ts (m.movedAll es stack s) ∧ ts.map Transition.event = es := by
  obtain ⟨program, s₀, stack₀, stats⟩ := m
  simp only at h
  induction h generalizing stats with
  | refl => exact ⟨[], .refl, rfl⟩
  | @step stack₁ stack₂ _ s₁ s₂ _ e es hr _ ih =>
      obtain ⟨context, hstep⟩ := step_of_rule (m := ⟨program, s₁, stack₁, stats⟩) hr
      obtain ⟨ts, hts, hes⟩ := ih (Replay.counters e stats)
      exact ⟨_ :: ts, .step hstep hts, by rw [List.map_cons, hes]⟩

namespace Steps

variable {m₁ m₂ m₃ : Machine σ} {t : Transition} {ts ts' : List Transition}

theorem trans (h : Steps env m₁ ts m₂) (h' : Steps env m₂ ts' m₃) :
    Steps env m₁ (ts ++ ts') m₃ := by
  induction h with
  | refl => exact h'
  | step hs _ ih => exact .step hs (ih h')

theorem split : ∀ {ts : List Transition} {m₁ : Machine σ}, Steps env m₁ (ts ++ ts') m₃ →
    ∃ m₂, Steps env m₁ ts m₂ ∧ Steps env m₂ ts' m₃
  | [], m₁, h => ⟨m₁, .refl, h⟩
  | _ :: _, _, .step hs h => by
      obtain ⟨m₂, hfirst, hrest⟩ := split h
      exact ⟨m₂, .step hs hfirst, hrest⟩

theorem program_eq (h : Steps env m₁ ts m₂) : m₂.program = m₁.program := by
  induction h with
  | refl => rfl
  | step hs _ ih => rw [ih, program_of_step hs]

end Steps

end Machine

end Stepwise
