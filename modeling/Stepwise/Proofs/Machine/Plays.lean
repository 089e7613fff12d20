import Mathlib.Order.Bounds.Basic
import Stepwise.Proofs.Machine.Ticks

/-!
# Playing a game to its end

Whoever drives a machine makes steps as long as the game is not over.  `Machine.Plays` is such
a run, and each driver is described by where it stops.  A run that ends with the game over ends
at the least number of steps after which it is over (`Machine.Plays.isLeast`), and any two of
them are the same (`Machine.Plays.eq_of_over`).

Not every game comes to an end.  `Environment.Lasts` says of a game that it does, by counting
the ticks that are left: a tick of a game that is not over takes one away, and nothing else
changes the game.  A machine with a valid program comes to a tick within the work of its
program, so it plays such a game to the end within that work for every tick that is left
(`Machine.Sound.plays_to_end`).
-/

namespace Stepwise

variable {σ : Type} {env : Environment σ}

namespace Machine

/-- Steps of a machine that all succeed, each made while the game is not over. -/
inductive Plays (env : Environment σ) : Machine σ → List Transition → Machine σ → Prop where
  | refl {m : Machine σ} : Plays env m [] m
  | step {m₁ m₂ m₃ : Machine σ} {t : Transition} {ts : List Transition} :
      env.finished m₁.state = false → m₁.step env = (m₂, .ok t) → Plays env m₂ ts m₃ →
      Plays env m₁ (t :: ts) m₃

namespace Plays

variable {m m₁ m₂ m₃ : Machine σ} {ts ts' : List Transition}

theorem steps (h : Plays env m₁ ts m₂) : Steps env m₁ ts m₂ := by
  induction h with
  | refl => exact .refl
  | step _ hstep _ ih => exact .step hstep ih

theorem trans (h : Plays env m₁ ts m₂) (h' : Plays env m₂ ts' m₃) :
    Plays env m₁ (ts ++ ts') m₃ := by
  induction h with
  | refl => exact h'
  | step hopen hstep _ ih => exact .step hopen hstep (ih h')

theorem afterSteps_eq (h : Plays env m₁ ts m₂) : m₁.afterSteps env ts.length = m₂ :=
  h.steps.performAll_eq

theorem open_before (h : Plays env m₁ ts m₂) {k : Nat} (hk : k < ts.length) :
    env.finished (m₁.afterSteps env k).state = false := by
  induction h generalizing k with
  | refl => cases hk
  | step hopen hstep _ ih =>
      cases k with
      | zero => exact hopen
      | succ k =>
          rw [afterSteps_succ, hstep]
          exact ih (Nat.lt_of_succ_lt_succ hk)

theorem length_le_of_over (h : Plays env m₁ ts m₂) {n : Nat}
    (hover : env.finished (m₁.afterSteps env n).state = true) : ts.length ≤ n := by
  by_contra hlt
  rw [h.open_before (Nat.lt_of_not_le hlt)] at hover
  cases hover

/-- If the game is over after a run, it is over then for the first time. -/
theorem isLeast (h : Plays env m₁ ts m₂) (hover : env.finished m₂.state = true) :
    IsLeast {n | env.finished (m₁.afterSteps env n).state = true} ts.length := by
  constructor
  · show env.finished (m₁.afterSteps env ts.length).state = true
    rw [h.afterSteps_eq]
    exact hover
  · intro n hn
    exact h.length_le_of_over hn

/-- A run to the end of the game goes through every run from the same machine. -/
theorem append_of_over (h : Plays env m₁ ts m₂) (hover : env.finished m₂.state = true)
    (h' : Plays env m₁ ts' m₃) : ∃ rest, ts = ts' ++ rest ∧ Plays env m₃ rest m₂ := by
  induction h' generalizing ts with
  | refl => exact ⟨ts, rfl, h⟩
  | step hopen hstep _ ih =>
      cases h with
      | refl =>
          rw [hover] at hopen
          cases hopen
      | step _ hstep' hrest =>
          rw [hstep] at hstep'
          cases hstep'
          obtain ⟨rest, rfl, hplays⟩ := ih hrest
          exact ⟨rest, rfl, hplays⟩

theorem eq_of_over (h : Plays env m₁ ts m₂) (hover : env.finished m₂.state = true)
    (h' : Plays env m₁ ts' m₃) (hover' : env.finished m₃.state = true) : ts = ts' ∧ m₂ = m₃ := by
  obtain ⟨rest, rfl, hrest⟩ := h.append_of_over hover h'
  cases hrest with
  | refl => exact ⟨List.append_nil _, rfl⟩
  | step hopen => exact nomatch hopen.symm.trans hover'

theorem drop (h : Plays env m₁ ts m₂) {k : Nat} (hk : k ≤ ts.length) :
    Plays env (m₁.afterSteps env k) (ts.drop k) m₂ := by
  induction h generalizing k with
  | refl =>
      obtain rfl : k = 0 := Nat.le_zero.mp hk
      exact .refl
  | step hopen hstep hrest ih =>
      cases k with
      | zero => exact .step hopen hstep hrest
      | succ k =>
          rw [afterSteps_succ, hstep]
          exact ih (Nat.le_of_succ_le_succ hk)

/-- The loop that plays a game to its end stops there, if it may make as many steps or more. -/
theorem untilFinished_eq (h : Plays env m₁ ts m₂) (hover : env.finished m₂.state = true)
    {fuel : Nat} (hfuel : ts.length ≤ fuel) : untilFinished env fuel m₁ = (m₂, .ok ()) := by
  induction h generalizing fuel with
  | refl =>
      cases fuel with
      | zero => rfl
      | succ fuel => rw [untilFinished, if_pos hover]
  | step hopen hstep _ ih =>
      cases fuel with
      | zero => cases hfuel
      | succ fuel =>
          rw [untilFinished, hopen, hstep]
          exact ih hover (Nat.le_of_succ_le_succ hfuel)

theorem runGame_eq (h : Plays env m₁ ts m₂) (hover : env.finished m₂.state = true) {ticks : Nat}
    (hticks : ts.length ≤ ticks * m₁.stepBound) :
    m₁.runGame env ticks = (m₂, .ok (env.won m₂.state)) := by
  rw [runGame, h.untilFinished_eq hover hticks]

end Plays

variable {m m' : Machine σ}

/-- A sound machine plays `n` steps, unless the game is over before. -/
theorem Sound.exists_plays (h : m.Sound) (env : Environment σ) (n : Nat) :
    ∃ ts m', Plays env m ts m' ∧ ts.length ≤ n ∧
      (env.finished m'.state = true ∨ ts.length = n) := by
  induction n generalizing m with
  | zero => exact ⟨[], m, .refl, Nat.le_refl 0, .inr rfl⟩
  | succ n ih =>
      cases hover : env.finished m.state with
      | true => exact ⟨[], m, .refl, Nat.zero_le _, .inl hover⟩
      | false =>
          obtain ⟨m₁, t, hstep, hm₁⟩ := h.step_ok env
          obtain ⟨ts, m', hplays, hle, hend⟩ := ih hm₁
          refine ⟨t :: ts, m', .step hover hstep hplays, Nat.succ_le_succ hle, ?_⟩
          rcases hend with hend | hend
          · exact .inl hend
          · exact .inr (congrArg Nat.succ hend)

end Machine

/-! ## Games that end -/

/-- A game that ends: as long as `inv` holds of its states, `left` counts ticks that it can last
at most.  Reading leaves the game as it is, and so does a tick when it is over. -/
structure Environment.Lasts (env : Environment σ) (inv : σ → Prop) (left : σ → Nat) : Prop where
  read : ∀ x s, (env.read x s).2 = s
  still : ∀ a s, env.finished s = true → (env.advance a s).2 = s
  keeps : ∀ a s, inv s → inv (env.advance a s).2
  runsDown : ∀ a s, inv s → env.finished s = false → left (env.advance a s).2 < left s

namespace Environment.Lasts

variable {inv : σ → Prop} {left : σ → Nat} {program : Form} {stack stack' : Stack Frame}
  {s s' : σ} {e : Event}

/-- A step changes the game by a tick if it charges one, and else not at all. -/
theorem rule (h : env.Lasts inv left) (hr : Rule env program stack s e stack' s') :
    (e.charges = false → s' = s) ∧ (e.charges = true → ∃ a, s' = (env.advance a s).2) := by
  cases hr with
  | act _ _ _ hadv => exact ⟨nofun, fun _ => ⟨_, by rw [hadv]⟩⟩
  | round _ hadv => exact ⟨nofun, fun _ => ⟨_, by rw [hadv]⟩⟩
  | observe _ _ _ hread =>
      refine ⟨fun _ => ?_, nofun⟩
      rw [← h.read _ s, hread]
  | _ => exact ⟨fun _ => rfl, nofun⟩

theorem rule_cases (h : env.Lasts inv left) (hr : Rule env program stack s e stack' s') :
    s' = s ∨ ∃ a, s' = (env.advance a s).2 := by
  obtain ⟨hquiet, htick⟩ := h.rule hr
  cases hc : e.charges with
  | false => exact .inl (hquiet hc)
  | true => exact .inr (htick hc)

end Environment.Lasts

namespace Machine

variable {inv : σ → Prop} {left : σ → Nat} {m m' : Machine σ} {quiet : List Transition}
  {last t : Transition}

theorem Steps.keeps (h : env.Lasts inv left) {ts : List Transition} (hs : Steps env m ts m')
    (hinv : inv m.state) : inv m'.state := by
  induction hs with
  | refl => exact hinv
  | step hstep _ ih =>
      apply ih
      rcases h.rule_cases (rule_of_step hstep).1 with hsame | ⟨a, hadv⟩
      · rwa [hsame]
      · rw [hadv]
        exact h.keeps a _ hinv

/-- Running an open game to a tick plays it: the game stands still until the tick. -/
theorem TicksTo.plays (h : env.Lasts inv left) (hticks : m.TicksTo env quiet last m')
    (hopen : env.finished m.state = false) :
    Plays env m (quiet ++ [last]) m' ∧ ∃ a, m'.state = (env.advance a m.state).2 := by
  obtain ⟨hsteps, hquiet, hlast⟩ := hticks
  induction quiet generalizing m with
  | nil =>
      cases hsteps with
      | step hstep hnone =>
          cases hnone
          exact ⟨.step hopen hstep .refl, (h.rule (rule_of_step hstep).1).2 hlast⟩
  | cons t quiet ih =>
      obtain ⟨ht, hquiet⟩ := List.forall_mem_cons.mp hquiet
      cases hsteps with
      | step hstep hrest =>
          have hstate := (h.rule (rule_of_step hstep).1).1 ht
          obtain ⟨hplays, hadv⟩ := ih (by rwa [hstate]) hrest hquiet
          exact ⟨.step hopen hstep hplays, by rwa [hstate] at hadv⟩

/-- A sound machine plays an open game to its next tick within the work of its program, and then
there is a tick less. -/
theorem Sound.plays_tick (h : m.Sound) (hlasts : env.Lasts inv left) (hinv : inv m.state)
    (hopen : env.finished m.state = false) :
    ∃ ts m', Plays env m ts m' ∧ ts.length ≤ m.stepBound ∧
      m.runTick env = (m', .ok (env.finished m'.state)) ∧ left m'.state < left m.state := by
  obtain ⟨quiet, last, m', hticks, hlength⟩ := h.exists_ticksTo env
  obtain ⟨hplays, a, hstate⟩ := hticks.plays hlasts hopen
  refine ⟨_, m', hplays, ?_, h.runTick_eq hticks hlength, ?_⟩
  · rw [List.length_append, List.length_singleton]
    exact Nat.le_trans hlength h.coherent.work_le
  · rw [hstate]
    exact hlasts.runsDown a m.state hinv hopen

/-- A sound machine plays a game that ends to its end, within the work of its program for every
tick that is left. -/
theorem Sound.plays_to_end (h : m.Sound) (hlasts : env.Lasts inv left) (hinv : inv m.state) :
    ∃ ts m', Plays env m ts m' ∧ env.finished m'.state = true ∧
      ts.length ≤ left m.state * m.stepBound := by
  induction hleft : left m.state using Nat.strong_induction_on generalizing m with
  | _ n ih =>
      cases hover : env.finished m.state with
      | true => exact ⟨[], m, .refl, hover, Nat.zero_le _⟩
      | false =>
          obtain ⟨first, m₁, hplays, hbound, -, hlt⟩ := h.plays_tick hlasts hinv hover
          rw [hleft] at hlt
          obtain ⟨rest, m', hrest, hover', hle⟩ :=
            ih _ hlt (h.steps hplays.steps) (hplays.steps.keeps hlasts hinv) rfl
          have hsame : m₁.stepBound = m.stepBound := by
            rw [stepBound, stepBound, hplays.steps.program_eq]
          refine ⟨first ++ rest, m', hplays.trans hrest, hover', ?_⟩
          calc (first ++ rest).length
              = first.length + rest.length := List.length_append
            _ ≤ m.stepBound + left m₁.state * m.stepBound := Nat.add_le_add hbound (hsame ▸ hle)
            _ = (left m₁.state + 1) * m.stepBound := by rw [Nat.succ_mul, Nat.add_comm]
            _ ≤ n * m.stepBound := Nat.mul_le_mul_right _ hlt

/-- Once a game that ends is over, steps leave it as it is, also if they fail. -/
theorem state_afterSteps_of_over (h : env.Lasts inv left) (hover : env.finished m.state = true)
    (n : Nat) : (m.afterSteps env n).state = m.state := by
  induction n generalizing m with
  | zero => rfl
  | succ n ih =>
      have hfirst : (m.step env).1.state = m.state := by
        cases hs : m.step env with
        | mk m₁ r =>
            cases r with
            | error e => rw [eq_of_step_error hs]
            | ok t =>
                rcases h.rule_cases (rule_of_step hs).1 with hsame | ⟨a, hadv⟩
                · exact hsame
                · exact hadv.trans (h.still a m.state hover)
      rw [afterSteps_succ, ih (by rwa [hfirst]), hfirst]

/-- A run to the end of a game that ends can be taken up after any number of steps: what is left
of it leads to the end, and nothing is left of it when the game was over before. -/
theorem Plays.resume (h : env.Lasts inv left) {ts : List Transition} (hplays : Plays env m ts m')
    (hover : env.finished m'.state = true) (k : Nat) :
    ∃ rest, Plays env (m.afterSteps env k) rest (m.afterSteps env (max k ts.length)) ∧
      env.finished (m.afterSteps env (max k ts.length)).state = true ∧
      rest.length = ts.length - k := by
  rcases Nat.le_total k ts.length with hk | hk
  · rw [Nat.max_eq_right hk, hplays.afterSteps_eq]
    exact ⟨ts.drop k, hplays.drop hk, hover, List.length_drop⟩
  · rw [Nat.max_eq_left hk, Nat.sub_eq_zero_of_le hk]
    refine ⟨[], .refl, ?_, rfl⟩
    obtain ⟨more, rfl⟩ := Nat.exists_eq_add_of_le hk
    rw [afterSteps_add, hplays.afterSteps_eq, state_afterSteps_of_over h hover]
    exact hover

end Machine

end Stepwise
