import Mathlib.Order.Nat
import Stepwise.Game.Tripwire
import Stepwise.Proofs.Fitness.Budget

/-!
# What it means to call off an evaluation

An evaluation is called off from outside, or by the game that it plays, at any moment.  It
looks only before every step whose number is a multiple of `checkEvery`, and only after it has
found the game open and its budget not used up.  `Fitness.SeenAt` says of a look that it
sees the evaluation called off.

The first such look ends the evaluation (`Machine.Sound.playOn_of_isLeast`).  If there is none,
the evaluation is the one that nobody calls off (`Machine.Sound.playOn_of_unseen`).

What was called off stays so.  A tripwire calls off an evaluation in the middle of a step, and it
does stay so, since it counts ticks and nothing takes a tick back (`Machine.tripped_step`).
-/

namespace Stepwise

variable {σ : Type} {env : Environment σ} {cancelled : Nat → σ → Bool} {m m' : Machine σ}
  {ts : List Transition} {B k : Nat}

namespace Fitness

/-- An evaluation of `m` with budget `B` comes to look for the `k`-th time, counted from zero,
and sees that it was called off. -/
structure SeenAt (env : Environment σ) (cancelled : Nat → σ → Bool) (B : Nat) (m : Machine σ)
    (k : Nat) : Prop where
  lt_budget : checkEvery * k < B
  off : cancelled (checkEvery * k) (m.afterSteps env (checkEvery * k)).state = true
  still_open : ∀ n ≤ checkEvery * k, env.finished (m.afterSteps env n).state = false

theorem playOn_seen {done : Nat} (hopen : env.finished m.state = false)
    (hlook : done % checkEvery = 0) (hoff : cancelled done m.state = true) (left : Nat) :
    playOn env cancelled (left + 1) done m = (.cancelled, m) := by
  rw [playOn]
  simp [hopen, hlook, hoff]

end Fitness

namespace Machine

open Fitness

/-- An evaluation follows a run within its budget, up to the first look that sees something. -/
theorem Plays.playOn_of_first (h : Plays env m ts m') (hle : ts.length ≤ B)
    (hfirst : ∀ i, SeenAt env cancelled B m i → ts.length ≤ checkEvery * i) (left : Nat) :
    playOn env cancelled (ts.length + left) 0 m = playOn env cancelled left ts.length m' := by
  suffices hunseen : ∀ n < ts.length, (0 + n) % checkEvery = 0 →
      cancelled (0 + n) (m.afterSteps env n).state = false by
    rw [h.playOn_add hunseen, Nat.zero_add]
  intro n hn hlook
  rw [Nat.zero_add] at hlook ⊢
  obtain ⟨i, rfl⟩ := Nat.dvd_of_mod_eq_zero hlook
  by_contra hoff
  have hseen : SeenAt env cancelled B m i := by
    constructor
    case lt_budget => exact Nat.lt_of_lt_of_le hn hle
    case off => simpa using hoff
    case still_open =>
      intro n' hn'
      exact h.open_before (Nat.lt_of_le_of_lt hn' hn)
  exact absurd (hfirst i hseen) (Nat.not_le.mpr hn)

/-- A sound machine plays on for as long as the game is open. -/
theorem Sound.plays_of_open (h : m.Sound) {n : Nat}
    (hopen : ∀ i ≤ n, env.finished (m.afterSteps env i).state = false) :
    ∃ ts, Plays env m ts (m.afterSteps env n) ∧ ts.length = n := by
  obtain ⟨ts, m', hplays, hle, hend⟩ := h.exists_plays env n
  have hm' : m.afterSteps env ts.length = m' := hplays.afterSteps_eq
  have hlength : ts.length = n := by
    rcases hend with hover | hlength
    · have hopen' := hopen ts.length hle
      rw [hm', hover] at hopen'
      cases hopen'
    · exact hlength
  rw [hlength] at hm'
  rw [hm']
  exact ⟨ts, hplays, hlength⟩

/-- The first look that sees the evaluation called off ends it. -/
theorem Sound.playOn_of_isLeast (h : m.Sound)
    (hk : IsLeast {k | SeenAt env cancelled B m k} k) :
    playOn env cancelled B 0 m = (.cancelled, m.afterSteps env (checkEvery * k)) := by
  obtain ⟨hlt, hoff, hopen⟩ := hk.1
  obtain ⟨ts, hplays, hlength⟩ := h.plays_of_open hopen
  have hfirst : ∀ i, SeenAt env cancelled B m i → ts.length ≤ checkEvery * i := by
    intro i hi
    rw [hlength]
    exact Nat.mul_le_mul_left _ (hk.2 hi)
  have hplayed := hplays.playOn_of_first (hlength ▸ Nat.le_of_lt hlt) hfirst
  obtain ⟨left, rfl⟩ := Nat.exists_eq_add_of_lt hlt
  rw [Nat.add_assoc, ← hlength, hplayed, hlength]
  exact playOn_seen (hopen _ (Nat.le_refl _)) (Nat.mul_mod_right _ _) hoff left

/-- An evaluation that never sees that it was called off is the one that nobody calls off. -/
theorem Sound.playOn_of_unseen (h : m.Sound) (hnone : ∀ k, ¬ SeenAt env cancelled B m k) :
    playOn env cancelled B 0 m = playOn env (fun _ _ => false) B 0 m := by
  obtain ⟨ts, m', hplays, hle, hend⟩ := h.exists_plays env B
  have hplayed := hplays.playOn_of_first hle fun i hi => absurd hi (hnone i)
  rw [hplays.playOn_eq hle hend]
  obtain ⟨left, rfl⟩ := Nat.exists_eq_add_of_le hle
  rw [hplayed]
  exact playOn_over (hend.imp_right fun hspent => by omega) _

end Machine

namespace Fitness

/-- Between the moment at which an evaluation is called off and the first look that sees it lie
fewer steps than between two looks. -/
theorem SeenAt.soon {n : Nat} (hk : IsLeast {k | SeenAt env cancelled B m k} k)
    (hstays : ∀ n, cancelled n (m.afterSteps env n).state = true →
      cancelled (n + 1) (m.afterSteps env (n + 1)).state = true)
    (hn : IsLeast {n | cancelled n (m.afterSteps env n).state = true} n) :
    n ≤ checkEvery * k ∧ checkEvery * k < n + checkEvery := by
  obtain ⟨hlt, hoff, hopen⟩ := hk.1
  refine ⟨hn.2 hoff, ?_⟩
  by_contra hlate
  -- The look before would have seen it as well.
  obtain ⟨k, rfl⟩ : ∃ j, k = j + 1 := by
    refine Nat.exists_eq_succ_of_ne_zero ?_
    rintro rfl
    simp [checkEvery] at hlate
  have hle : checkEvery * k ≤ checkEvery * (k + 1) := Nat.mul_le_mul_left _ (Nat.le_succ k)
  have hbefore : n ≤ checkEvery * k := by
    rw [Nat.mul_succ] at hlate
    omega
  have hoff' : cancelled (checkEvery * k) (m.afterSteps env (checkEvery * k)).state = true :=
    Nat.le_induction hn.1 (fun n _ => hstays n) _ hbefore
  have hseen : SeenAt env cancelled B m k :=
    ⟨Nat.lt_of_le_of_lt hle hlt, hoff', fun n' hn' => hopen n' (Nat.le_trans hn' hle)⟩
  exact absurd (hk.2 hseen) (Nat.not_succ_le_self k)

variable {program : Form} {maxSteps : Int64} {s : σ}

theorem Run.play_of_isLeast (hp : Program program) (hk : IsLeast
    {k | SeenAt env cancelled (budget maxSteps) (Machine.new program s) k} k) :
    play env maxSteps cancelled program s =
      ⟨program, s, (Machine.new program s).afterSteps env (checkEvery * k), .cancelled⟩ := by
  rw [play, (Machine.Sound.new hp s).playOn_of_isLeast hk]

theorem Run.play_of_unseen (hp : Program program)
    (hnone : ∀ k, ¬ SeenAt env cancelled (budget maxSteps) (Machine.new program s) k) :
    play env maxSteps cancelled program s = play env maxSteps (fun _ _ => false) program s ∧
      (play env maxSteps cancelled program s).ending = .complete := by
  have hsound : (Machine.new program s).Sound := .new hp s
  have hsame : play env maxSteps cancelled program s =
      play env maxSteps (fun _ _ => false) program s := by
    rw [play, play, hsound.playOn_of_unseen hnone]
  rw [hsame]
  exact ⟨rfl, playOn_complete hsound _ _⟩

/-- What it means to call off an evaluation.

`B` is the budget, and `after n` the new machine after `n` steps.  At `off n` the evaluation has
been called off when `n` steps are done, and it stays so.  The evaluation fails for that reason
if and only if it is called off after some multiple of 1024 steps within the budget, and the game
has not been over until then.  It ends at the first such multiple, which comes fewer than 1024
steps after the step in which it was called off.  If there is none, the evaluation is complete
and the same as if nobody had called it off. -/
theorem run_of_cancellation (env : Environment σ) (program : Form) (hp : program.validate = .ok ())
    (s : σ) (maxSteps : Int64) (cancelled : Nat → σ → Bool)
    (hstays : ∀ n, cancelled n ((Machine.new program s).afterSteps env n).state = true →
      cancelled (n + 1) ((Machine.new program s).afterSteps env (n + 1)).state = true) :
    let B := if 0 < maxSteps then maxSteps.toInt.toNat else 100000
    let after := (Machine.new program s).afterSteps env
    let off := fun n => cancelled n (after n).state = true
    let seen := {k | 1024 * k < B ∧ off (1024 * k) ∧
      ∀ n ≤ 1024 * k, env.finished (after n).state = false}
    ∃ r : Run σ, run env maxSteps cancelled (some program) (some s) = .ok r ∧
      (r.outcome env = .error .cancelled ↔ ∃ k, k ∈ seen) ∧
      (∀ k, IsLeast seen k →
        r.final = after (1024 * k) ∧ r.final.stats.steps.toInt = 1024 * k ∧
        ∀ n, IsLeast {n | off n} n → n ≤ 1024 * k ∧ 1024 * k < n + 1024) ∧
      ((¬ ∃ k, k ∈ seen) →
        run env maxSteps (fun _ _ => false) (some program) (some s) = .ok r ∧
        ∃ result, r.outcome env = .ok result) := by
  intro B after off seen
  have hprogram : Program program := Form.validate_eq_ok_iff.mp hp
  have hB : B = budget maxSteps := (budget_eq maxSteps).symm
  have hseen : seen = {k | SeenAt env cancelled (budget maxSteps) (Machine.new program s) k} := by
    ext k
    rw [← hB]
    constructor
    · rintro ⟨hlt, hoff, hopen⟩
      exact ⟨hlt, hoff, hopen⟩
    · rintro ⟨hlt, hoff, hopen⟩
      exact ⟨hlt, hoff, hopen⟩
  have hcut : ∀ k, IsLeast seen k →
      Run.play env maxSteps cancelled program s = ⟨program, s, after (1024 * k), .cancelled⟩ := by
    intro k hk
    exact Run.play_of_isLeast hprogram (hseen ▸ hk)
  refine ⟨Run.play env maxSteps cancelled program s, run_of_program hprogram .., ?_, ?_, ?_⟩
  · constructor
    · intro hout
      by_contra hnone
      rw [hseen] at hnone
      obtain ⟨-, hcomplete⟩ := Run.play_of_unseen hprogram (not_exists.mp hnone)
      rw [Run.outcome, hcomplete] at hout
      cases hout
    · intro hex
      classical
      rw [hcut _ (Nat.isLeast_find hex)]
      rfl
  · intro k hk
    rw [hcut k hk]
    obtain ⟨hlt, -, hopen⟩ := hk.1
    obtain ⟨ts, hplays, hlength⟩ := (Machine.Sound.new hprogram s).plays_of_open hopen
    have hle : ts.length ≤ budget maxSteps := by omega
    have hsteps : (after (1024 * k)).stats.steps.toInt = ts.length := hplays.toInt_steps hle
    refine ⟨rfl, ?_, ?_⟩
    · rw [hsteps, hlength, Int.natCast_mul]
      rfl
    · intro n hn
      exact SeenAt.soon (hseen ▸ hk) hstays hn
  · intro hnone
    rw [hseen] at hnone
    obtain ⟨hsame, hcomplete⟩ := Run.play_of_unseen hprogram (not_exists.mp hnone)
    refine ⟨?_, (Run.play env maxSteps cancelled program s).report env, ?_⟩
    · rw [hsame]
      exact run_of_program hprogram ..
    · rw [Run.outcome, hcomplete]

end Fitness

/-! ## Tripwires -/

theorem Environment.begun_read (env : Environment σ) (x : Sensor) (w : Wired σ) :
    (env.wired.read x w).2.begun = w.begun := by
  cases x <;> rfl

/-- Nothing takes a tick back. -/
theorem Rule.begun_le {program : Form} {stack stack' : Stack Frame} {w w' : Wired σ} {e : Event}
    (hr : Rule env.wired program stack w e stack' w') : w.begun ≤ w'.begun := by
  cases hr with
  | act _ _ _ hadv =>
      obtain rfl := congrArg Prod.snd hadv
      exact Nat.le_succ _
  | round _ hadv =>
      obtain rfl := congrArg Prod.snd hadv
      exact Nat.le_succ _
  | observe _ _ _ hread =>
      obtain rfl := congrArg Prod.snd hread
      exact Nat.le_of_eq (env.begun_read _ w).symm
  | _ => exact Nat.le_refl _

/-- A tripwire that has gone off stays so. -/
theorem Machine.tripped_step {limit : Int64} {m : Machine (Wired σ)}
    (h : m.state.tripped limit = true) : (m.step env.wired).1.state.tripped limit = true := by
  have hbegun : m.state.begun ≤ (m.step env.wired).1.state.begun := by
    cases hs : m.step env.wired with
    | mk m' r =>
        cases r with
        | error e => rw [eq_of_step_error hs]
        | ok t => exact (rule_of_step hs).1.begun_le
  simp only [Wired.tripped, Bool.and_eq_true, decide_eq_true_eq] at h ⊢
  exact ⟨h.1, Int.le_trans h.2 (Int.ofNat_le.mpr hbegun)⟩

namespace Fitness

/-- The oracle's game is never over, and the duelist comes to its first tick in its seventh step.
An evaluation that is called off there is seen to be so after 1024 steps, but not if it has no
step left then. -/
theorem run_of_tripped_duelist :
    let cancelled : Nat → Wired (List Int64) → Bool := fun _ w => w.tripped 1
    (∃ r, run oracle.wired 1025 cancelled (some duelist) (some ⟨[], 0⟩) = .ok r ∧
      r.outcome oracle.wired = .error .cancelled ∧ r.final.stats.steps.toInt = 1024) ∧
    (∃ r result, run oracle.wired 1024 cancelled (some duelist) (some ⟨[], 0⟩) = .ok r ∧
      r.outcome oracle.wired = .ok result) := by
  intro cancelled
  let after := (Machine.new duelist (⟨[], 0⟩ : Wired (List Int64))).afterSteps oracle.wired
  have hstays : ∀ n, (after n).state.tripped 1 = true → (after (n + 1)).state.tripped 1 = true := by
    intro n h
    show ((Machine.new duelist _).afterSteps oracle.wired (n + 1)).state.tripped 1 = true
    rw [Machine.afterSteps_add]
    exact Machine.tripped_step h
  have hoff : ∀ n, 7 ≤ n → (after n).state.tripped 1 = true := by
    intro n hn
    exact Nat.le_induction (by decide) (fun n _ => hstays n) n hn
  have hpos : ∀ k, (after (1024 * k)).state.tripped 1 = true → 1 ≤ k := by
    rintro (_ | k) h
    · cases h
    · exact Nat.succ_pos k
  constructor
  · obtain ⟨r, hrun, hcalled, hfirst, -⟩ :=
      run_of_cancellation oracle.wired duelist duelist_valid ⟨[], 0⟩ 1025 cancelled hstays
    have hlt : 1024 * 1 < if (0 : Int64) < 1025 then (1025 : Int64).toInt.toNat else 100000 := by
      decide
    have hone : 7 ≤ 1024 * 1 := by decide
    refine ⟨r, hrun, hcalled.mpr ⟨1, hlt, hoff _ hone, fun _ _ => rfl⟩,
      (hfirst 1 ⟨⟨hlt, hoff _ hone, fun _ _ => rfl⟩, ?_⟩).2.1⟩
    rintro k ⟨-, hk, -⟩
    exact hpos k hk
  · obtain ⟨r, hrun, -, -, hnone⟩ :=
      run_of_cancellation oracle.wired duelist duelist_valid ⟨[], 0⟩ 1024 cancelled hstays
    have hunseen := hnone <| by
      rintro ⟨k, hlt, hk, -⟩
      have hbudget : 1024 * k < 1024 := hlt
      have hone := hpos k hk
      omega
    obtain ⟨-, result, hresult⟩ := hunseen
    exact ⟨r, result, hrun, hresult⟩

end Fitness

end Stepwise
