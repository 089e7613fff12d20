import Stepwise.Proofs.Machine.Ticks
import Stepwise.Trial

/-!
# Trials run as many ticks as they are told

A machine with a valid program always comes to the next tick, so a trial that is run for
some ticks is run for exactly so many.  A game that remembers the actions taken
(`Environment.Remembers`) has as many more of them then, and these are what the trial
answers.  Running a trial in two parts is the same as running it at once, as nothing but the
machine is carried over.

`Machine.ticks_of_validate` says all of this, together with what happens until one tick.
-/

namespace Stepwise

variable {σ : Type} {env : Environment σ} {program : Form}

/-! ## Games that remember -/

/-- The game remembers what it was told: `actions` lists it in order. -/
structure Environment.Remembers (env : Environment σ) (actions : σ → List Action) : Prop where
  advance : ∀ a s, actions (env.advance a s).2 = actions s ++ [a]
  read : ∀ x s, actions (env.read x s).2 = actions s

theorem scriptedGame_remembers : scriptedGame.Remembers Scripted.actions where
  advance a s := by simp [scriptedGame, Scripted.act, Scripted.actions]
  read x s := by cases x <;> rfl

/-- A step adds to the memory of the game what it tells it. -/
theorem Rule.remembers {actions : σ → List Action} (h : env.Remembers actions)
    {stack stack' : Stack Frame} {s s' : σ} {e : Event}
    (hr : Rule env program stack s e stack' s') : actions s' = actions s ++ e.told := by
  cases hr with
  | act _ _ _ hadv =>
      obtain rfl : (env.advance _ s).2 = s' := congrArg Prod.snd hadv
      exact h.advance _ s
  | observe _ _ _ hread =>
      obtain rfl : (env.read _ s).2 = s' := congrArg Prod.snd hread
      rw [h.read]
      exact (List.append_nil _).symm
  | round _ hadv =>
      obtain rfl : (env.advance _ s).2 = s' := congrArg Prod.snd hadv
      exact h.advance _ s
  | _ => exact (List.append_nil _).symm

namespace Machine

variable {m m' : Machine σ} {ts : List Transition}

theorem Steps.remembers {actions : σ → List Action} (h : env.Remembers actions)
    (hs : Steps env m ts m') : actions m'.state = actions m.state ++ told ts := by
  induction hs with
  | refl => simp
  | step hstep _ ih =>
      rw [ih, (rule_of_step hstep).1.remembers h, told_cons, List.append_assoc]

/-! ## Several ticks -/

theorem runTicks.go_add {n k : Nat} {last ended : Bool}
    (h : runTicks.go env n last m = (m', .ok ended)) :
    runTicks.go env (n + k) last m = runTicks.go env k ended m' := by
  induction n generalizing m last with
  | zero =>
      cases h
      rw [Nat.zero_add]
  | succ n ih =>
      rw [Nat.succ_add, runTicks.go]
      rw [runTicks.go] at h
      cases hm : m.runTick env with
      | mk m₁ r =>
          rw [hm] at h
          cases r with
          | error e => cases h
          | ok first => exact ih h

theorem runTicks.go_fst (k : Nat) (last : Bool) (m : Machine σ) :
    (runTicks.go env k last m).1 = (m.runTicks env k).1 := by
  cases k with
  | zero => rfl
  | succ k => rfl

/-- A sound machine runs as many ticks as it is told. -/
theorem Sound.runTicks (h : m.Sound) (env : Environment σ) (n : Nat) (last : Bool) :
    ∃ m' ended ts, runTicks.go env n last m = (m', .ok ended) ∧ m'.Sound ∧
      Steps env m ts m' ∧ (told ts).length = n := by
  induction n generalizing m last with
  | zero => exact ⟨m, last, [], rfl, h, .refl, rfl⟩
  | succ n ih =>
      obtain ⟨quiet, t, m₁, hticks, hlength⟩ := h.exists_ticksTo env
      obtain ⟨hquiet, a, hlast⟩ := hticks.told
      have hm₁ : m₁.Sound := h.steps hticks.steps
      obtain ⟨m', ended, ts, hgo, hm', hsteps, htold⟩ := ih hm₁ (env.finished m₁.state)
      refine ⟨m', ended, (quiet ++ [t]) ++ ts, ?_, hm', hticks.steps.trans hsteps, ?_⟩
      · rw [runTicks.go, h.runTick_eq hticks hlength]
        exact hgo
      · simp [hquiet, hlast, htold]

/-- Running a sound machine for `n` ticks and then for `k` more is running it for all of them. -/
theorem Sound.runTicks_add (h : m.Sound) (env : Environment σ) (n k : Nat) :
    (m.runTicks env (n + k)).1 = ((m.runTicks env n).1.runTicks env k).1 := by
  obtain ⟨m', ended, -, hgo, -⟩ := h.runTicks env n false
  have hfirst : (m.runTicks env n).1 = m' := by rw [Machine.runTicks, hgo]
  calc (m.runTicks env (n + k)).1
      = (runTicks.go env k ended m').1 := by rw [Machine.runTicks, runTicks.go_add hgo]
    _ = (m'.runTicks env k).1 := runTicks.go_fst k ended m'
    _ = ((m.runTicks env n).1.runTicks env k).1 := by rw [hfirst]

end Machine

/-! ## Trials -/

/-- A trial with a sound machine, in a game that remembers, answers with as many actions as
it was told to run ticks. -/
theorem Trial.ticks_eq {actions : σ → List Action} (h : env.Remembers actions) {m : Machine σ}
    (hm : m.Sound) (n : Nat) :
    ∃ m' as, m'.Sound ∧ (m.runTicks env n).1 = m' ∧ as.length = n ∧
      actions m'.state = actions m.state ++ as ∧
      Trial.ticks n ⟨env, fun s => some (actions s), some m⟩ =
        (⟨env, fun s => some (actions s), some m'⟩, some as) := by
  obtain ⟨m', ended, ts, hgo, hm', hsteps, htold⟩ := hm.runTicks env n false
  have hrun : m.runTicks env n = (m', .ok ended) := hgo
  have hactions := hsteps.remembers h
  refine ⟨m', told ts, hm', by rw [hrun], htold, hactions, ?_⟩
  simp [Trial.ticks, hrun, hactions]

/-- A trial that is run in two parts takes the actions of both, and its machine ends where that
of the whole run does. -/
theorem Trial.ticks_add {actions : σ → List Action} (h : env.Remembers actions) {m : Machine σ}
    (hm : m.Sound) (n k : Nat) :
    let trial (m : Machine σ) : Trial σ := ⟨env, fun s => some (actions s), some m⟩
    ∃ m₁ m₂ as bs, as.length = n ∧ bs.length = k ∧
      (m.runTicks env n).1 = m₁ ∧ actions m₁.state = actions m.state ++ as ∧
      (m₁.runTicks env k).1 = m₂ ∧ actions m₂.state = actions m₁.state ++ bs ∧
      (m.runTicks env (n + k)).1 = m₂ ∧
      (trial m).ticks n = (trial m₁, some as) ∧ (trial m₁).ticks k = (trial m₂, some bs) ∧
      (trial m).ticks (n + k) = (trial m₂, some (as ++ bs)) := by
  intro trial
  obtain ⟨m₁, as, hm₁, hrun₁, has, hactions₁, hticks₁⟩ := Trial.ticks_eq h hm n
  obtain ⟨m₂, bs, hm₂, hrun₂, hbs, hactions₂, hticks₂⟩ := Trial.ticks_eq h hm₁ k
  obtain ⟨m₃, cs, -, hrun₃, -, hactions₃, hticks₃⟩ := Trial.ticks_eq h hm (n + k)
  have hsame : m₃ = m₂ := by
    rw [← hrun₃, hm.runTicks_add, hrun₁, hrun₂]
  subst hsame
  have hcs : cs = as ++ bs := by
    rw [hactions₂, hactions₁, List.append_assoc] at hactions₃
    exact (List.append_cancel_left hactions₃).symm
  exact ⟨m₁, m₃, as, bs, has, hbs, hrun₁, hactions₁, hrun₂, hactions₂, hrun₃, hticks₁, hticks₂,
    hcs ▸ hticks₃⟩

/-- A machine with a valid program always comes to its next tick, and charges no other.

Wherever steps, runs and resets have left the machine, the loop that runs it to a tick stops
after at most one step for every node of the program and one for every form, however many
more it may make.  The game is told nothing before the last of these steps, and one action
by the last.

So a trial in a game that remembers the actions, as a scripted game does, answers with `n`
of them when it is run for `n` ticks: those that the game was told meanwhile, and its machine
has run for `n` ticks.  When it is run for `n + k` ticks, it answers with those of `n` ticks and
then with those of `k` more, and its machine ends where these leave it. -/
theorem Machine.ticks_of_validate (program : Form) (hp : program.validate = .ok ()) :
    (∀ (σ : Type) (env : Environment σ) (s : σ) (ops : List Operation),
      let m := (Machine.new program s).performAll env ops
      ∃ (quiet : List Transition) (last : Transition) (m' : Machine σ),
        quiet.length + 1 ≤ (Node.form program).nodeCount + (Node.form program).formCount ∧
        Steps env m (quiet ++ [last]) m' ∧
        (∀ t ∈ quiet, t.event.charges = false) ∧ last.event.charges = true ∧
        (∀ fuel, quiet.length < fuel → untilTick env fuel m = (m', .ok ())) ∧
        m.runTick env = (m', .ok (env.finished m'.state)) ∧
        ∃ (mid : Machine σ) (calls : List Call) (a : Action) (ok : Bool),
          Steps env.overheard (m.overhearing []) quiet (mid.overhearing calls) ∧
          calls.filterMap Call.action? = [] ∧
          (mid.overhearing calls).step env.overheard =
            (m'.overhearing (calls ++ [.advance a ok]), .ok last)) ∧
    (∀ (σ : Type) (env : Environment σ) (actions : σ → List Action), env.Remembers actions →
      ∀ (s : σ) (ops : List Operation) (n k : Nat),
      let trial (m : Machine σ) : Trial σ := ⟨env, fun s => some (actions s), some m⟩
      let m := (Machine.new program s).performAll env ops
      ∃ m₁ m₂ as bs, as.length = n ∧ bs.length = k ∧
        (m.runTicks env n).1 = m₁ ∧ actions m₁.state = actions m.state ++ as ∧
        (m₁.runTicks env k).1 = m₂ ∧ actions m₂.state = actions m₁.state ++ bs ∧
        (m.runTicks env (n + k)).1 = m₂ ∧
        (trial m).ticks n = (trial m₁, some as) ∧ (trial m₁).ticks k = (trial m₂, some bs) ∧
        (trial m).ticks (n + k) = (trial m₂, some (as ++ bs))) ∧
    scriptedGame.Remembers Scripted.actions := by
  have hprogram : Program program := Form.validate_eq_ok_iff.mp hp
  refine ⟨fun σ env s ops => ?_, fun σ env actions hr s ops n k => ?_, scriptedGame_remembers⟩
  · have hm := performAll_sound hprogram env s ops
    obtain ⟨quiet, last, m', hticks, hlength⟩ := hm.exists_ticksTo env
    refine ⟨quiet, last, m', ?_, hticks.steps, hticks.quiet, hticks.charges,
      fun fuel => hticks.untilTick, hm.runTick_eq hticks hlength, hticks.overhearing⟩
    have hle := hm.coherent.work_le
    rw [(performAll_coherent program s ops).1] at hlength hle
    exact Nat.le_trans hlength hle
  · exact Trial.ticks_add hr (performAll_sound hprogram env s ops) n k

/-- The duelist in the empty script, run for two ticks and then for three. -/
theorem Machine.ticks_of_duelist :
    let trial (m : Machine Scripted) : Trial Scripted :=
      ⟨scriptedGame, fun s => some s.actions, some m⟩
    let m := Machine.new duelist (⟨{}, [], 0, 0, rfl⟩ : Scripted)
    ∃ m₁ m₂ as bs, as.length = 2 ∧ bs.length = 3 ∧ m₁.state.actions = as ∧
      m₂.state.actions = as ++ bs ∧ (trial m).ticks 2 = (trial m₁, some as) ∧
      (trial m₁).ticks 3 = (trial m₂, some bs) ∧
      (trial m).ticks 5 = (trial m₂, some (as ++ bs)) := by
  intro trial m
  obtain ⟨-, htrial, hscripted⟩ := Machine.ticks_of_validate duelist duelist_valid
  obtain ⟨m₁, m₂, as, bs, has, hbs, -, hactions₁, -, hactions₂, -, hticks⟩ :=
    htrial Scripted scriptedGame Scripted.actions hscripted ⟨{}, [], 0, 0, rfl⟩ [] 2 3
  have hfirst : m₁.state.actions = as := hactions₁
  exact ⟨m₁, m₂, as, bs, has, hbs, hfirst, hfirst ▸ hactions₂, hticks⟩

end Stepwise
