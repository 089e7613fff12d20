import Stepwise.Machine.Meaning
import Stepwise.Proofs.Machine.Rules

/-!
# What a machine asks of its game

A game can be played with someone listening, who writes down everything that is asked
of the game, with the answers.  `Environment.overheard` is that game, and what it has
written down after some steps is what these steps asked.

Listening changes nothing.  A game `env'` *covers* a game `env` when forgetting a part of
its states turns its answers into those of `env` (`Environment.Covers`).  Then a machine
makes the same steps in both (`Machine.step_mapState`), and a game that is overheard
covers the game itself.

What was told to the game, leaving out what was read, is what the events say
(`Machine.Steps.overheard_told`), and the counters follow from it
(`Machine.Steps.stats_after`).
-/

namespace Stepwise

variable {σ τ : Type}

/-! ## Covering a game -/

/-- Forgetting, as `φ` does, a part of the states of `env'` turns its answers into those
of `env`. -/
structure Environment.Covers (env' : Environment τ) (env : Environment σ) (φ : τ → σ) : Prop where
  advance : ∀ a t, env.advance a (φ t) = ((env'.advance a t).1, φ (env'.advance a t).2)
  read : ∀ x t, env.read x (φ t) = ((env'.read x t).1, φ (env'.read x t).2)

/-- The machine with another view of its game. -/
def Machine.mapState (φ : τ → σ) (m : Machine τ) : Machine σ where
  program := m.program
  state := φ m.state
  stack := m.stack
  stats := m.stats

namespace Machine

variable {env : Environment σ} {env' : Environment τ} {φ : τ → σ}

theorem leave_mapState (h : env'.Covers env φ) (m : Machine τ) (f : Frame)
    (below : Stack Frame) :
    (m.mapState φ).leave env f below =
      ((m.leave env' f below).1.mapState φ, (m.leave env' f below).2) := by
  cases below with
  | nil =>
      have hadv := h.advance .none m.state
      simp only [leave, mapState, hadv, done]
  | cons g outer => rfl

theorem resolve_mapState (φ : τ → σ) (m : Machine τ) (f : Frame) (below : Stack Frame) :
    (m.mapState φ).resolve f below =
      ((m.resolve f below).1.mapState φ, (m.resolve f below).2) := by
  unfold resolve
  cases f.control with
  | error e => rfl
  | ok c => rfl

theorem call_mapState (h : env'.Covers env φ) (m : Machine τ) (f : Frame) (below : Stack Frame)
    (k : Nat) (n : Option Node) :
    (m.mapState φ).call env f below k n =
      ((m.call env' f below k n).1.mapState φ, (m.call env' f below k n).2) := by
  match n with
  | none => rfl
  | some .missing => rfl
  | some (.form a) => rfl
  | some (.terminal name) =>
      simp only [call]
      cases leafNamed name with
      | error e => rfl
      | ok l =>
          cases l with
          | move v =>
              have hadv := h.advance (.move v) m.state
              simp only [mapState, hadv, done, depth]
          | sense x =>
              have hread := h.read x m.state
              simp only [mapState, hread, done, depth]

theorem visit_mapState (h : env'.Covers env φ) (m : Machine τ) (f : Frame) (below : Stack Frame)
    (k : Nat) :
    (m.mapState φ).visit env f below k =
      ((m.visit env' f below k).1.mapState φ, (m.visit env' f below k).2) := by
  unfold visit
  cases f.control with
  | error e => rfl
  | ok c =>
      by_cases htakes : f.takes c k = true
      · simp only [htakes, if_true]
        exact call_mapState h m f below k _
      · simp only [htakes]
        rfl

/-- A step is the same in a game and in one that covers it. -/
theorem step_mapState (h : env'.Covers env φ) (m : Machine τ) :
    (m.mapState φ).step env = ((m.step env').1.mapState φ, (m.step env').2) := by
  obtain ⟨program, t, stack, stats⟩ := m
  cases stack with
  | nil => rfl
  | cons f below =>
      unfold step
      simp only [mapState]
      cases f.cursor with
      | operand k => exact visit_mapState h ⟨program, t, f :: below, stats.countStep⟩ f below k
      | resolving => exact resolve_mapState φ ⟨program, t, f :: below, stats.countStep⟩ f below
      | finished => exact leave_mapState h ⟨program, t, f :: below, stats.countStep⟩ f below

theorem Steps.mapState (h : env'.Covers env φ) {m m' : Machine τ} {ts : List Transition}
    (hs : Steps env' m ts m') : Steps env (m.mapState φ) ts (m'.mapState φ) := by
  induction hs with
  | refl => exact .refl
  | step hstep _ ih =>
      refine .step ?_ ih
      rw [step_mapState h, hstep]

end Machine

theorem Rule.mapState {env : Environment σ} {env' : Environment τ} {φ : τ → σ}
    (h : env'.Covers env φ) {program : Form} {stack stack' : Stack Frame} {t t' : τ} {e : Event}
    (hr : Rule env' program stack t e stack' t') : Rule env program stack (φ t) e stack' (φ t') := by
  cases hr with
  | start => exact .start
  | enter hat htakes hn => exact .enter hat htakes hn
  | act hat htakes hn hadv => exact .act hat htakes hn (by rw [h.advance, hadv])
  | observe hat htakes hn hread => exact .observe hat htakes hn (by rw [h.read, hread])
  | skip hat htakes => exact .skip hat htakes
  | resolve hcur hc => exact .resolve hcur hc
  | handBack hcur => exact .handBack hcur
  | round hcur hadv => exact .round hcur (by rw [h.advance, hadv])

theorem Runs.mapState {env : Environment σ} {env' : Environment τ} {φ : τ → σ}
    (h : env'.Covers env φ) {program : Form} {stack stack' : Stack Frame} {t t' : τ}
    {es : List Event} (hr : Runs env' program stack t es stack' t') :
    Runs env program stack (φ t) es stack' (φ t') := by
  induction hr with
  | refl => exact .refl
  | step hrule _ ih => exact .step (hrule.mapState h) ih

/-! ## Listening -/

/-- A state of a game together with what was asked of it. -/
structure Overheard (σ : Type) where
  state : σ
  /-- What was asked so far, in order. -/
  calls : List Call

/-- A game played with someone listening. -/
def Environment.overheard (env : Environment σ) : Environment (Overheard σ) where
  advance a o :=
    let (ok, s) := env.advance a o.state
    (ok, ⟨s, o.calls ++ [.advance a ok]⟩)
  distanceX o :=
    let (v, s) := env.distanceX o.state
    (v, ⟨s, o.calls ++ [.read .distX v]⟩)
  distanceY o :=
    let (v, s) := env.distanceY o.state
    (v, ⟨s, o.calls ++ [.read .distY v]⟩)
  finished o := env.finished o.state
  won o := env.won o.state

@[simp] theorem Environment.overheard_advance (env : Environment σ) (a : Action)
    (o : Overheard σ) :
    env.overheard.advance a o =
      ((env.advance a o.state).1,
        ⟨(env.advance a o.state).2, o.calls ++ [.advance a (env.advance a o.state).1]⟩) := rfl

@[simp] theorem Environment.overheard_read (env : Environment σ) (x : Sensor) (o : Overheard σ) :
    env.overheard.read x o =
      ((env.read x o.state).1,
        ⟨(env.read x o.state).2, o.calls ++ [.read x (env.read x o.state).1]⟩) := by
  cases x <;> rfl

/-- Listening changes nothing in the game. -/
theorem Environment.overheard_covers (env : Environment σ) :
    env.overheard.Covers env Overheard.state where
  advance a o := by rw [Environment.overheard_advance]
  read x o := by rw [Environment.overheard_read]

/-- The machine in the same game with someone listening, who has heard `calls`. -/
def Machine.overhearing (m : Machine σ) (calls : List Call) : Machine (Overheard σ) where
  program := m.program
  state := ⟨m.state, calls⟩
  stack := m.stack
  stats := m.stats

@[simp] theorem Machine.mapState_overhearing (m : Machine σ) (calls : List Call) :
    (m.overhearing calls).mapState Overheard.state = m := rfl

@[simp] theorem Machine.overhearing_mapState (m : Machine (Overheard σ)) :
    (m.mapState Overheard.state).overhearing m.state.calls = m := rfl

/-! ## What was told -/

/-- The action that a call tells the game, if it is one. -/
def Call.action? : Call → Option Action
  | .advance a _ => some a
  | .read .. => none

/-- What a step tells the game, as its event says. -/
def Event.told : Event → List Action
  | .act v _ => [.move v]
  | .round .. => [.none]
  | _ => []

/-- What steps tell the game, as their events say. -/
def told (ts : List Transition) : List Action := ts.flatMap fun t => t.event.told

@[simp] theorem told_nil : told [] = [] := rfl

@[simp] theorem told_cons (t : Transition) (ts : List Transition) :
    told (t :: ts) = t.event.told ++ told ts := rfl

@[simp] theorem told_append (ts ts' : List Transition) :
    told (ts ++ ts') = told ts ++ told ts' := by
  simp [told]

/-- An event that charges a tick tells the game one action, and others tell it nothing. -/
theorem Event.length_told (e : Event) : e.told.length = if e.charges then 1 else 0 := by
  cases e <;> rfl

/-- One step asks at most one thing of the game, and tells it what the event says. -/
theorem Rule.overheard_told {env : Environment σ} {program : Form} {stack stack' : Stack Frame}
    {o o' : Overheard σ} {e : Event} (h : Rule env.overheard program stack o e stack' o') :
    ∃ calls, o'.calls = o.calls ++ calls ∧ calls.filterMap Call.action? = e.told ∧
      calls.length ≤ 1 := by
  cases h with
  | start => exact ⟨[], by simp, rfl, by simp⟩
  | enter => exact ⟨[], by simp, rfl, by simp⟩
  | act _ _ _ hadv =>
      rw [Environment.overheard_advance] at hadv
      cases hadv
      exact ⟨_, rfl, rfl, by simp⟩
  | observe _ _ _ hread =>
      rw [Environment.overheard_read] at hread
      cases hread
      exact ⟨_, rfl, rfl, by simp⟩
  | skip => exact ⟨[], by simp, rfl, by simp⟩
  | resolve => exact ⟨[], by simp, rfl, by simp⟩
  | handBack => exact ⟨[], by simp, rfl, by simp⟩
  | round _ hadv =>
      rw [Environment.overheard_advance] at hadv
      cases hadv
      exact ⟨_, rfl, rfl, by simp⟩

/-- A step can be overheard. -/
theorem Machine.step_overhearing {env : Environment σ} {m m' : Machine σ} {t : Transition}
    (hs : m.step env = (m', .ok t)) (before : List Call) :
    ∃ calls, (m.overhearing before).step env.overheard =
        (m'.overhearing (before ++ calls), .ok t) ∧
      calls.filterMap Call.action? = t.event.told ∧ calls.length ≤ 1 := by
  have hlift := step_mapState env.overheard_covers (m.overhearing before)
  rw [mapState_overhearing, hs] at hlift
  -- The overheard step has the same answer and leaves the same machine, listening apart.
  cases hs' : (m.overhearing before).step env.overheard with
  | mk m₁ r =>
      rw [hs'] at hlift
      obtain ⟨rfl, rfl⟩ := Prod.mk.inj hlift
      obtain ⟨calls, hcalls, htold, hlen⟩ := (rule_of_step hs').1.overheard_told
      refine ⟨calls, ?_, htold, hlen⟩
      rw [← overhearing_mapState m₁, hcalls]
      rfl

namespace Machine.Steps

variable {env : Environment σ} {m m' : Machine σ} {ts : List Transition}

/-- Of what steps ask of the game, the part that tells it something is in the events. -/
theorem overheard_told {m m' : Machine (Overheard σ)} (h : Steps env.overheard m ts m') :
    ∃ calls, m'.state.calls = m.state.calls ++ calls ∧
      calls.filterMap Call.action? = told ts := by
  induction h with
  | refl => exact ⟨[], by simp, rfl⟩
  | step hs _ ih =>
      obtain ⟨first, hfirst, htold, -⟩ := (rule_of_step hs).1.overheard_told
      obtain ⟨rest, hrest, htold'⟩ := ih
      refine ⟨first ++ rest, ?_, ?_⟩
      · rw [hrest, hfirst, List.append_assoc]
      · rw [List.filterMap_append, htold, htold', told_cons]

/-- Steps can be overheard, and then they ask of the game what tells it the same. -/
theorem overhearing (h : Steps env m ts m') (before : List Call) :
    ∃ calls, Steps env.overheard (m.overhearing before) ts (m'.overhearing (before ++ calls)) ∧
      calls.filterMap Call.action? = told ts := by
  induction h generalizing before with
  | refl => exact ⟨[], by simpa using Steps.refl, rfl⟩
  | step hs _ ih =>
      obtain ⟨first, hfirst, htold, -⟩ := step_overhearing hs before
      obtain ⟨rest, hrest, htold'⟩ := ih (before ++ first)
      refine ⟨first ++ rest, .step hfirst ?_, ?_⟩
      · rw [← List.append_assoc]
        exact hrest
      · rw [List.filterMap_append, htold, htold', told_cons]

end Machine.Steps

/-! ## The counters -/

/-- The counters after `calls` more steps that told the game `told`. -/
def Stats.after (s : Stats) (calls : Nat) (told : List Action) : Stats where
  steps := s.steps + Int64.ofNat calls
  ticks := s.ticks + Int64.ofNat told.length
  rounds := s.rounds + Int64.ofNat (told.count .none)
  actions := s.actions + Int64.ofNat (told.countP (· ≠ .none))

@[simp] theorem Stats.after_zero (s : Stats) : s.after 0 [] = s := by
  simp [Stats.after]

theorem Stats.after_after (s : Stats) (n k : Nat) (as bs : List Action) :
    (s.after n as).after k bs = s.after (n + k) (as ++ bs) := by
  simp [Stats.after, Int64.ofNat_add, Int64.add_assoc]

/-- A step that succeeds counts itself and what it tells the game. -/
theorem Replay.counters_eq (e : Event) (s : Stats) : Replay.counters e s = s.after 1 e.told := by
  cases e <;> simp [Replay.counters, Stats.countStep, Stats.countAction, Stats.countRound,
    Stats.after, Event.told]

namespace Machine.Steps

variable {env : Environment σ} {m m' : Machine σ} {ts : List Transition}

theorem stats_after (h : Steps env m ts m') : m'.stats = m.stats.after ts.length (told ts) := by
  induction h with
  | refl => simp
  | @step m₁ m₂ _ t ts hs _ ih =>
      have hfirst : m₂.stats = m₁.stats.after 1 t.event.told := by
        rw [← Replay.counters_eq, (rule_of_step hs).2.1]
        rfl
      rw [ih, hfirst, Stats.after_after, List.length_cons, told_cons, Nat.add_comm]

theorem steps_eq (h : Steps env m ts m') :
    m'.stats.steps = m.stats.steps + Int64.ofNat ts.length :=
  congrArg Stats.steps h.stats_after

theorem rounds_eq (h : Steps env m ts m') :
    m'.stats.rounds = m.stats.rounds + Int64.ofNat ((told ts).count .none) :=
  congrArg Stats.rounds h.stats_after

theorem actions_eq (h : Steps env m ts m') :
    m'.stats.actions = m.stats.actions + Int64.ofNat ((told ts).countP (· ≠ .none)) :=
  congrArg Stats.actions h.stats_after

theorem ticks_eq (h : Steps env m ts m') :
    m'.stats.ticks = m.stats.ticks + Int64.ofNat (told ts).length :=
  congrArg Stats.ticks h.stats_after

end Machine.Steps

end Stepwise
