import Stepwise.Proofs.Machine.Safety

/-!
# The events of a run are a complete log of it

A step reports one event.  Together the events of a run say all that can be known of the
machine without its game: replaying them gives the pending frames and the counters
(`Machine.Steps.replay`).  It is a simulation, in which one rule is matched by the replay of
one event (`Rule.replay`).

`Machine.transcript` is what is reported to the outside.  It lists one transition for every
step that does not fail (`Machine.Steps.transcript_eq`), and the actions in these transitions
are what the game was told, in order (`told_eq`).
-/

namespace Stepwise

variable {σ : Type} {env : Environment σ} {program : Form}

/-! ## Replaying rules and steps -/

/-- Replaying the event of a rule does to the frames what the rule does. -/
theorem Rule.replay {stack stack' : Stack Frame} {s s' : σ} {e : Event}
    (hr : Rule env program stack s e stack' s') : Replay.frames program e stack = stack' := by
  cases hr with
  | start => rfl
  | enter hat _ hn => simp only [Replay.frames, hat.operandNumber_eq, hn]
  | act hat =>
      simp only [Replay.frames, Replay.onTop, Replay.fill, hat.operandNumber_eq]
      rfl
  | observe hat =>
      simp only [Replay.frames, Replay.onTop, Replay.fill, hat.operandNumber_eq]
      rfl
  | skip hat => simp only [Replay.frames, Replay.onTop, hat.operandNumber_eq]
  | resolve => rfl
  | handBack => rfl
  | round => rfl

namespace Machine

variable {m m' : Machine σ} {t : Transition} {ts : List Transition}

/-- The part of a machine that is not its program or its game. -/
def replayed (m : Machine σ) : Replay := ⟨m.stack, m.stats⟩

theorem replay_of_step (h : m.step env = (m', .ok t)) :
    Replay.event m.program m.replayed t.event = m'.replayed := by
  obtain ⟨hr, hm, -⟩ := rule_of_step h
  have hstats : m'.stats = Replay.counters t.event m.stats := by
    rw [hm]
    rfl
  simp only [Replay.event, replayed, hr.replay, hstats]

/-- The depth that a step reports is the number of frames that it leaves. -/
theorem depth_of_step (h : m.step env = (m', .ok t)) : t.depth = m'.depth := by
  obtain ⟨hr, -⟩ := rule_of_step h
  obtain ⟨context, hstep⟩ := step_of_rule hr
  rw [h] at hstep
  obtain ⟨-, ht⟩ := Prod.mk.inj hstep
  rw [Except.ok.inj ht]
  rfl

namespace Steps

/-- Replaying the events of steps leads to the frames and counters that the steps lead to. -/
theorem replay (h : Steps env m ts m') :
    (ts.map Transition.event).foldl (Replay.event m.program) m.replayed = m'.replayed := by
  induction h with
  | refl => rfl
  | step hs _ ih =>
      rw [List.map_cons, List.foldl_cons, replay_of_step hs, ← program_of_step hs]
      exact ih

/-! ## What is reported -/

theorem stepsOnto_eq (h : Steps env m ts m') (before : List Transition) :
    stepsOnto env ts.length before m = (ts.reverse ++ before, m') := by
  induction h generalizing before with
  | refl => rfl
  | @step m₁ m₂ _ t ts hs _ ih =>
      rw [List.length_cons, stepsOnto, hs, List.reverse_cons, List.append_assoc]
      exact ih (t :: before)

/-- Steps that all succeed report one transition each. -/
theorem transcript_eq (h : Steps env m ts m') : m.transcript env ts.length = ts := by
  rw [transcript, h.stepsOnto_eq]
  simp

/-- The first `k` of some steps lead to where `k` steps lead. -/
theorem take (h : Steps env m ts m') {k : Nat} (hk : k ≤ ts.length) :
    Steps env m (ts.take k) (m.performAll env (List.replicate k .step)) := by
  rw [← List.take_append_drop k ts] at h
  obtain ⟨m₁, hfirst, -⟩ := h.split
  have hm₁ := hfirst.performAll_eq
  rw [List.length_take, Nat.min_eq_left hk] at hm₁
  rw [hm₁]
  exact hfirst

/-- What is reported in place `k` is what the step after the first `k` did. -/
theorem step_at (h : Steps env m ts m') {k : Nat} (hk : ts[k]? = some t) :
    (m.performAll env (List.replicate k .step)).step env =
      (m.performAll env (List.replicate (k + 1) .step), .ok t) := by
  obtain ⟨hlt, rfl⟩ := List.getElem?_eq_some_iff.mp hk
  have hnext := h.take hlt
  rw [List.take_succ_eq_append_getElem hlt] at hnext
  obtain ⟨m₁, hfirst, hlast⟩ := hnext.split
  obtain rfl : m.performAll env (List.replicate k .step) = m₁ := by
    have heq := hfirst.performAll_eq
    rwa [List.length_take, Nat.min_eq_left (Nat.le_of_lt hlt)] at heq
  cases hlast with
  | step hs hnone =>
      cases hnone
      exact hs

end Steps

/-- If none of the next `n` steps fails, they are a run. -/
theorem exists_steps {n : Nat}
    (h : ∀ k < n, ∃ t, ((m.performAll env (List.replicate k .step)).step env).2 = .ok t) :
    ∃ ts m', Steps env m ts m' ∧ ts.length = n := by
  induction n generalizing m with
  | zero => exact ⟨[], m, .refl, rfl⟩
  | succ n ih =>
      obtain ⟨t, ht⟩ : ∃ t, (m.step env).2 = .ok t := h 0 (Nat.succ_pos n)
      have hstep : m.step env = ((m.step env).1, .ok t) := by rw [← ht]
      obtain ⟨ts, m', hts, hlen⟩ := ih (m := (m.step env).1) fun k hk => h (k + 1) (by omega)
      exact ⟨t :: ts, m', .step hstep hts, by rw [List.length_cons, hlen]⟩

end Machine

/-- What steps tell the game is in the events that charge a tick. -/
theorem told_eq (ts : List Transition) :
    told ts = ((ts.map Transition.event).filter Event.charges).map Event.action := by
  induction ts with
  | nil => rfl
  | cons t ts ih =>
      rw [told_cons, ih, List.map_cons, List.filter_cons]
      cases t.event <;> rfl

/-! ## The whole log -/

/-- The events that a new machine reports are a complete log of its run, as long as no step
fails, whatever the program is.

There are as many of them as there were steps, and each reports the depth of the stack after
its step.  At every moment the frames and the counters are those that the events so far give
when they are replayed.  The actions in the events that charge a tick are the actions that
the game was told, in order. -/
theorem Machine.replay_of_transcript (env : Environment σ) (program : Form) (s : σ) (n : Nat)
    (h : ∀ k < n, ∃ t,
      (((Machine.new program s).performAll env (List.replicate k .step)).step env).2 = .ok t) :
    let after (k : Nat) := (Machine.new program s).performAll env (List.replicate k .step)
    let ts := (Machine.new program s).transcript env n
    ts.length = n ∧
    (∀ k t, ts[k]? = some t → (after k).step env = (after (k + 1), .ok t) ∧
      t.depth = (after (k + 1)).stack.length) ∧
    (∀ k ≤ n, Replay.events program ((ts.take k).map Transition.event) =
      ⟨(after k).stack, (after k).stats⟩) ∧
    ((ts.map Transition.event).filter Event.charges).map Event.action =
      ((Machine.new program (⟨s, []⟩ : Overheard σ)).performAll env.overheard
        (List.replicate n .step)).state.calls.filterMap Call.action? := by
  intro after ts
  obtain ⟨ts', m', hsteps, hlen⟩ := exists_steps h
  have hts : ts = ts' := by
    show (Machine.new program s).transcript env n = ts'
    rw [← hlen, hsteps.transcript_eq]
  subst hts
  refine ⟨hlen, fun k t hk => ?_, fun k hk => ?_, ?_⟩
  · have hstep := hsteps.step_at hk
    exact ⟨hstep, depth_of_step hstep⟩
  · exact (hsteps.take (hlen ▸ hk)).replay
  · obtain ⟨calls, hcalls, htold⟩ := hsteps.overhearing []
    have hall := hcalls.performAll_eq
    rw [hlen] at hall
    have hstate : ((Machine.new program (⟨s, []⟩ : Overheard σ)).performAll env.overheard
        (List.replicate n .step)).state.calls = calls := congrArg (fun m => m.state.calls) hall
    rw [hstate, htold, told_eq]

/-- A move, and then a word that means nothing. -/
def stumble : Form := Form.prog2 (Leaf.move .left).node (.terminal "jump")

/-- Two steps of the stumbling program succeed.  Their events give the frame that is about to
fail at its second operand. -/
theorem Machine.replay_of_stumble :
    let ts := (Machine.new stumble (⟨{}, [], 0, 0, rfl⟩ : Scripted)).transcript scriptedGame 2
    ts.map Transition.event = [.start stumble, .act .left true] ∧
    ts.map Transition.depth = [1, 1] ∧
    Replay.events stumble (ts.map Transition.event) =
      ⟨[⟨stumble, .operand 2, [none, some 1, none]⟩], ⟨2, 1, 0, 1⟩⟩ := by
  obtain ⟨-, -, hreplay, -⟩ := Machine.replay_of_transcript scriptedGame stumble
    (⟨{}, [], 0, 0, rfl⟩ : Scripted) 2 (by
      intro k hk
      match k, hk with
      | 0, _ => exact ⟨_, rfl⟩
      | 1, _ => exact ⟨_, rfl⟩)
  refine ⟨rfl, rfl, ?_⟩
  exact (hreplay 2 (Nat.le_refl 2)).trans rfl

end Stepwise
