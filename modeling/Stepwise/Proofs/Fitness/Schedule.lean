import Mathlib.Algebra.GroupWithZero.Nat
import Stepwise.Proofs.Fitness.Batch

/-!
# The order of the evaluations does not matter

Whatever the schedule, an evaluation in a pool does what it would do alone, as far as it has
come.  This is `Progress.Faithful`, and a turn keeps it (`Evaluation.turn_faithful`).  The
exceptions are an evaluation without a game and one that was called off.  Both need a supply of
games that ran dry, and by the time an evaluation is called off the error of one without a game
has been remembered.  These facts about the whole pool are `Pool.Faithful`.  One turn keeps them
(`Pool.Faithful.turn`), so every schedule does (`Pool.Faithful.follow`).

A pool that is not settled has an evaluation that can move, the first one that has not ended
(`Pool.exists_possible`), and a move leaves less to do (`Pool.todo_moved_lt`).  So every schedule
can be continued until the pool is settled (`Pool.exists_settled`).
-/

namespace Stepwise.Fitness

variable {σ : Type} {e : Evaluator σ} {fresh : Nat → Option σ}

/-! ## One evaluation -/

/-- One of the first `asked` requests for a game was in vain. -/
def Dry (fresh : Nat → Option σ) (asked : Nat) : Prop := ∃ k < asked, fresh k = none

theorem Dry.mono {k l : Nat} (h : Dry fresh k) (hle : k ≤ l) : Dry fresh l := by
  obtain ⟨i, hi, hnone⟩ := h
  exact ⟨i, Nat.lt_of_lt_of_le hi hle, hnone⟩

/-- How far the evaluation of program `a` with number `n` may have come after `asked` requests
for a game. -/
inductive Progress.Faithful (e : Evaluator σ) (fresh : Nat → Option σ) (asked n : Nat) (a : Form) :
    Progress σ → Prop where
  | waiting : Faithful e fresh asked n a .waiting
  /-- It is on the way to what it would come to alone. -/
  | playing {k : Nat} {s : σ} {done : Nat} {m : Machine σ} (hk : k < asked)
      (hgame : fresh k = some s) (hm : m.Sound)
      (hway : playOn e.env (fun _ _ => false) (budget e.maxSteps - done) done m =
        playOn e.env (fun _ _ => false) (budget e.maxSteps) 0 (Machine.new a s)) :
      Faithful e fresh asked n a (.playing s done m)
  | noGame (hdry : Dry fresh asked) : Faithful e fresh asked n a (.ended ⟨n, none⟩)
  /-- It has come to what it would come to alone. -/
  | complete {k : Nat} {s : σ} (hk : k < asked) (hgame : fresh k = some s) :
      Faithful e fresh asked n a (.ended ⟨n, some (e.alone s a)⟩)
  | calledOff {r : Run σ} (hdry : Dry fresh asked) (hending : r.ending = .cancelled) :
      Faithful e fresh asked n a (.ended ⟨n, some r⟩)

theorem Progress.Faithful.mono {k l n : Nat} {a : Form} {p : Progress σ}
    (h : p.Faithful e fresh k n a) (hle : k ≤ l) : p.Faithful e fresh l n a := by
  cases h with
  | waiting => exact .waiting
  | playing hk hgame hm hway => exact .playing (Nat.lt_of_lt_of_le hk hle) hgame hm hway
  | noGame hdry => exact .noGame (hdry.mono hle)
  | complete hk hgame => exact .complete (Nat.lt_of_lt_of_le hk hle) hgame
  | calledOff hdry hending => exact .calledOff (hdry.mono hle) hending

namespace Evaluation

variable {k : Nat} {t : Evaluation σ} {stopped : Bool}

/-- The evaluation has come as far as it may. -/
def Faithful (e : Evaluator σ) (fresh : Nat → Option σ) (asked : Nat) (t : Evaluation σ) : Prop :=
  t.progress.Faithful e fresh asked t.number t.program

theorem beginWith_faithful (hp : Program t.program) :
    (t.beginWith (fresh k)).Faithful e fresh (k + 1) t.number t.program := by
  cases hgame : fresh k with
  | none => exact .noGame ⟨k, Nat.lt_succ_self k, hgame⟩
  | some s => exact .playing (Nat.lt_succ_self k) hgame (.new hp s) rfl

theorem goOn_faithful (hq : e.Quiet) {s : σ} {done : Nat} {m : Machine σ}
    (h : (Progress.playing s done m).Faithful e fresh k t.number t.program)
    (hstopped : stopped = true → Dry fresh k) :
    (t.goOn e stopped s done m).Faithful e fresh k t.number t.program := by
  cases h with
  | playing hk hgame hm hway =>
      rw [goOn]
      split
      next hover =>
          rw [Bool.or_eq_true, decide_eq_true_eq] at hover
          have hleft : e.env.finished m.state = true ∨ budget e.maxSteps - done = 0 :=
            hover.imp_right Nat.sub_eq_zero_of_le
          have halone : e.alone s t.program = ⟨t.program, s, m, .complete⟩ := by
            rw [Evaluator.alone, Run.play, ← hway, playOn_over hleft]
          rw [finish, ← halone]
          exact .complete hk hgame
      next hover =>
          rw [Bool.or_eq_true, decide_eq_true_eq, not_or, Nat.not_le] at hover
          split
          next hoff =>
              rw [hq.trips, Bool.or_false, Bool.and_eq_true] at hoff
              exact .calledOff (hstopped hoff.2) rfl
          next =>
              obtain ⟨m', u, hstep, hm'⟩ := hm.step_ok e.env
              have hleft : budget e.maxSteps - done = budget e.maxSteps - (done + 1) + 1 := by omega
              simp only [hstep]
              refine .playing hk hgame hm' ?_
              rw [← hway, hleft, playOn_succ hover.1 hstep]

/-- A turn keeps an evaluation faithful. -/
theorem turn_faithful (hq : e.Quiet) (hp : Program t.program) (h : t.Faithful e fresh k)
    (hstopped : stopped = true → Dry fresh k) :
    (t.turn e (fresh k) stopped).Faithful e fresh (if t.isWaiting then k + 1 else k) := by
  obtain ⟨n, a, p⟩ := t
  cases p with
  | waiting => exact beginWith_faithful hp
  | playing s done m => exact goOn_faithful hq h hstopped
  | ended job => exact h

@[simp]
theorem turn_number (game? : Option σ) : (t.turn e game? stopped).number = t.number := by
  rw [turn]
  split <;> rfl

@[simp]
theorem turn_program (game? : Option σ) : (t.turn e game? stopped).program = t.program := by
  rw [turn]
  split <;> rfl

@[simp]
theorem turn_isWaiting (game? : Option σ) : (t.turn e game? stopped).isWaiting = false := by
  obtain ⟨n, a, p⟩ := t
  cases p with
  | waiting => cases game? <;> rfl
  | playing s done m =>
      simp only [turn, goOn]
      repeat' split
      all_goals rfl
  | ended job => rfl

/-- An evaluation fails only if the supply of games ran dry. -/
theorem Faithful.dry_of_failure (h : t.Faithful e fresh k) (hp : Program t.program)
    {err : BatchError} (herr : t.failure? e = some err) : Dry fresh k := by
  obtain ⟨n, a, p⟩ := t
  change p.Faithful e fresh k n a at h
  cases h with
  | waiting => cases herr
  | playing => cases herr
  | noGame hdry => exact hdry
  | complete => simp [failure?, Job.outcome_alone e _ hp] at herr
  | calledOff hdry => exact hdry

theorem turn_failure_of_waiting (hwait : t.isWaiting = true) (game? : Option σ) :
    (t.turn e game? stopped).failure? e =
      if game?.isSome then none else some (.noGame t.number) := by
  obtain ⟨n, a, p⟩ := t
  cases p with
  | waiting => cases game? <;> rfl
  | playing => cases hwait
  | ended => cases hwait

/-- An evaluation fails in a turn for want of a game, unless the supply ran dry before. -/
theorem turn_failure_cases (hq : e.Quiet) (hp : Program t.program) (h : t.Faithful e fresh k)
    (hstopped : stopped = true → Dry fresh k) {err : BatchError}
    (herr : (t.turn e (fresh k) stopped).failure? e = some err) :
    (t.isWaiting = true ∧ fresh k = none ∧ err = .noGame t.number) ∨ Dry fresh k := by
  cases hwait : t.isWaiting with
  | true =>
      rw [turn_failure_of_waiting hwait] at herr
      cases hgame : fresh k with
      | none =>
          simp only [hgame, Option.isSome_none, Bool.false_eq_true, if_false] at herr
          exact .inl ⟨rfl, rfl, (Option.some.inj herr).symm⟩
      | some s => simp [hgame] at herr
  | false =>
      have hnext := turn_faithful hq hp h hstopped
      rw [hwait, if_neg Bool.false_ne_true] at hnext
      exact .inr (hnext.dry_of_failure (by simpa using hp) herr)

/-- When nobody else calls off the batch, a failure does, and nothing but a failure. -/
theorem callsOff_eq (hq : e.Quiet) (t : Evaluation σ) : t.callsOff e = (t.failure? e).isSome := by
  obtain ⟨n, a, p⟩ := t
  cases p with
  | waiting => rfl
  | playing s done m => exact hq.trips m.state
  | ended job =>
      obtain ⟨n, run?⟩ := job
      cases run? with
      | none => rfl
      | some r =>
          simp only [callsOff, Job.callsOff, failure?, hq.trips, Bool.or_false]
          split <;> simp [*]

end Evaluation

/-! ## The pool -/

/-- What holds of the pool for programs with their numbers. -/
structure Pool.Faithful (e : Evaluator σ) (fresh : Nat → Option σ) (pairs : List (Nat × Form))
    (p : Pool σ) : Prop where
  labels : p.evaluations.map (fun t => (t.number, t.program)) = pairs
  evaluations : ∀ t ∈ p.evaluations, t.Faithful e fresh p.asked
  asked : p.asked = p.evaluations.countP fun t => !t.isWaiting
  /-- A supply that runs dry is an error, and nothing else is. -/
  failure_iff : p.failure?.isSome = true ↔ Dry fresh p.asked
  /-- Nobody is called off before an error has been remembered. -/
  stopped : p.stopped = true → Dry fresh p.asked
  noGame : ∀ err, p.failure? = some err → ∃ n ∈ pairs.map Prod.fst, err = .noGame n

namespace Pool

variable {pairs : List (Nat × Form)} {p : Pool σ}

theorem ofPrograms_faithful (hq : e.Quiet) (fresh : Nat → Option σ) (pairs : List (Nat × Form)) :
    (Pool.ofPrograms e pairs).Faithful e fresh pairs where
  labels := by
    rw [ofPrograms, List.map_map]
    exact List.map_id pairs
  evaluations := by
    intro t ht
    obtain ⟨⟨n, a⟩, -, rfl⟩ := List.mem_map.mp ht
    exact .waiting
  asked := by
    symm
    rw [ofPrograms, List.countP_map, List.countP_eq_zero]
    simp [Evaluation.isWaiting]
  failure_iff := by simp [ofPrograms, Dry]
  stopped := by simp [ofPrograms, hq.cancelled]
  noGame := by simp [ofPrograms]

theorem Faithful.program (h : p.Faithful e fresh pairs) (hpairs : ∀ q ∈ pairs, Program q.2)
    {t : Evaluation σ} (ht : t ∈ p.evaluations) : Program t.program :=
  hpairs (t.number, t.program) (h.labels ▸ List.mem_map_of_mem ht)

/-- The pool after a move of `t`, which stands between `before` and `after`. -/
def moved (e : Evaluator σ) (fresh : Nat → Option σ) (aware : Bool) (before : List (Evaluation σ))
    (t : Evaluation σ) (after : List (Evaluation σ)) (p : Pool σ) : Pool σ :=
  let next := t.turn e (fresh p.asked) (aware && p.stopped)
  { evaluations := before ++ next :: after
    asked := if t.isWaiting then p.asked + 1 else p.asked
    stopped := p.stopped || next.callsOff e
    failure? := p.failure?.or (next.failure? e) }

/-- A turn of an evaluation that can move. -/
theorem turn_eq_moved {before after : List (Evaluation σ)} {t : Evaluation σ}
    (hp : p.evaluations = before ++ t :: after)
    (hmove : p.mayMove e.concurrency before.length t = true) (aware : Bool) :
    p.turn e fresh ⟨before.length, aware⟩ = p.moved e fresh aware before t after := by
  rw [turn, hp, List.getElem?_append_right (Nat.le_refl _), Nat.sub_self, List.getElem?_cons_zero]
  simp only [hmove, if_true, moved]
  rw [List.set_append_right _ _ (Nat.le_refl _), Nat.sub_self, List.set_cons_zero]

/-- A turn changes nothing, unless some evaluation moves. -/
theorem turn_cases (e : Evaluator σ) (fresh : Nat → Option σ) (p : Pool σ) (u : Turn) :
    p.turn e fresh u = p ∨ ∃ before t after, p.evaluations = before ++ t :: after ∧
      p.turn e fresh u = p.moved e fresh u.aware before t after := by
  cases ht : p.evaluations[u.place]? with
  | none => exact .inl (by rw [turn, ht])
  | some t =>
      cases hmove : p.mayMove e.concurrency u.place t with
      | false => exact .inl (by rw [turn, ht]; simp [hmove])
      | true =>
          obtain ⟨hplace, rfl⟩ := List.getElem?_eq_some_iff.mp ht
          have hsplit := (List.take_append_drop u.place p.evaluations).symm
          rw [List.drop_eq_getElem_cons hplace] at hsplit
          have hlength : (p.evaluations.take u.place).length = u.place :=
            List.length_take_of_le hplace.le
          have hturn : p.turn e fresh ⟨(p.evaluations.take u.place).length, u.aware⟩ = _ :=
            turn_eq_moved hsplit (by rw [hlength, hmove]) u.aware
          rw [hlength] at hturn
          exact .inr ⟨_, _, _, hsplit, hturn⟩

/-- One move keeps the pool faithful. -/
theorem Faithful.moved (hq : e.Quiet) (hpairs : ∀ q ∈ pairs, Program q.2)
    (h : p.Faithful e fresh pairs) {before after : List (Evaluation σ)} {t : Evaluation σ}
    (hsplit : p.evaluations = before ++ t :: after) (aware : Bool) :
    (p.moved e fresh aware before t after).Faithful e fresh pairs := by
  have hmem : t ∈ p.evaluations := by simp [hsplit]
  have hprogram : Program t.program := h.program hpairs hmem
  have hoff : (aware && p.stopped) = true → Dry fresh p.asked := by
    rw [Bool.and_eq_true]
    exact fun hoff => h.stopped hoff.2
  have hasked : p.asked ≤ if t.isWaiting then p.asked + 1 else p.asked := by
    split <;> omega
  have hnext := Evaluation.turn_faithful hq hprogram (h.evaluations t hmem) hoff
  have hfailed : ((t.turn e (fresh p.asked) (aware && p.stopped)).failure? e).isSome = true →
      Dry fresh (if t.isWaiting then p.asked + 1 else p.asked) := by
    intro hsome
    obtain ⟨err, herr⟩ := Option.isSome_iff_exists.mp hsome
    exact hnext.dry_of_failure (by simpa using hprogram) herr
  constructor
  case labels =>
    rw [← h.labels, hsplit]
    simp [Pool.moved]
  case evaluations =>
    intro t' ht'
    rw [Pool.moved, List.mem_append, List.mem_cons] at ht'
    obtain ht' | rfl | ht' := ht'
    · exact (h.evaluations t' (by simp [hsplit, ht'])).mono hasked
    · exact hnext
    · exact (h.evaluations t' (by simp [hsplit, ht'])).mono hasked
  case asked =>
    have hcount := h.asked
    simp only [hsplit, List.countP_append, List.countP_cons] at hcount
    simp only [Pool.moved, List.countP_append, List.countP_cons, Evaluation.turn_isWaiting, hcount]
    cases t.isWaiting <;> simp
    omega
  case failure_iff =>
    simp only [Pool.moved, Option.isSome_or, Bool.or_eq_true]
    constructor
    · rintro (hold | hnew)
      · exact (h.failure_iff.mp hold).mono hasked
      · exact hfailed hnew
    · rintro ⟨k, hk, hnone⟩
      by_cases hold : k < p.asked
      · exact .inl (h.failure_iff.mpr ⟨k, hold, hnone⟩)
      · -- The request in vain is that of this very move.
        have hwait : t.isWaiting = true := by
          by_contra hwait
          rw [if_neg hwait] at hk
          exact hold hk
        have hlast : k = p.asked := by
          rw [if_pos hwait] at hk
          omega
        rw [Evaluation.turn_failure_of_waiting hwait, ← hlast, hnone]
        exact .inr rfl
  case stopped =>
    simp only [Pool.moved, Evaluation.callsOff_eq hq, Bool.or_eq_true]
    rintro (hold | hnew)
    · exact (h.stopped hold).mono hasked
    · exact hfailed hnew
  case noGame =>
    intro err herr
    simp only [Pool.moved, Option.or_eq_some_iff] at herr
    obtain hold | ⟨hnone, hnew⟩ := herr
    · exact h.noGame err hold
    · -- Nothing has failed before, so this evaluation was not called off.
      have hdry : ¬ Dry fresh p.asked := by
        rw [← h.failure_iff, hnone]
        simp
      obtain ⟨-, -, rfl⟩ := (Evaluation.turn_failure_cases hq hprogram (h.evaluations t hmem) hoff
        hnew).resolve_right hdry
      have hlabel : (t.number, t.program) ∈ pairs := h.labels ▸ List.mem_map_of_mem hmem
      exact ⟨t.number, List.mem_map_of_mem hlabel, rfl⟩

/-- One turn keeps the pool faithful. -/
theorem Faithful.turn (hq : e.Quiet) (hpairs : ∀ q ∈ pairs, Program q.2)
    (h : p.Faithful e fresh pairs) (u : Turn) : (p.turn e fresh u).Faithful e fresh pairs := by
  obtain hsame | ⟨before, t, after, hsplit, hturn⟩ := turn_cases e fresh p u
  · rw [hsame]
    exact h
  · rw [hturn]
    exact h.moved hq hpairs hsplit u.aware

/-- A whole schedule keeps the pool faithful. -/
theorem Faithful.follow (hq : e.Quiet) (hpairs : ∀ q ∈ pairs, Program q.2)
    (h : p.Faithful e fresh pairs) (schedule : List Turn) :
    (p.follow e fresh schedule).Faithful e fresh pairs := by
  induction schedule generalizing p with
  | nil => exact h
  | cons u schedule ih => exact ih (h.turn hq hpairs u)

end Pool

/-! ## Coming to an end -/

/-- A bound on the turns that an evaluation still has. -/
def Evaluation.todo (e : Evaluator σ) (t : Evaluation σ) : Nat :=
  match t.progress with
  | .waiting => budget e.maxSteps + 2
  | .playing _ done _ => budget e.maxSteps - done + 1
  | .ended _ => 0

theorem Evaluation.todo_turn_lt {t : Evaluation σ} (h : t.hasEnded = false) (game? : Option σ)
    (stopped : Bool) : (t.turn e game? stopped).todo e < t.todo e := by
  obtain ⟨n, a, p⟩ := t
  cases p with
  | waiting => cases game? <;> simp [turn, beginWith, todo]
  | playing s done m =>
      simp only [turn, goOn]
      split
      next => simp [finish, todo]
      next hover =>
          rw [Bool.or_eq_true, decide_eq_true_eq, not_or, Nat.not_le] at hover
          split
          next => simp [finish, todo]
          next =>
              split
              next => simp [finish, todo]
              next =>
                  simp only [todo]
                  omega
  | ended => cases h

namespace Pool

variable {p : Pool σ}

/-- A bound on the turns that can still change the pool. -/
def todo (e : Evaluator σ) (p : Pool σ) : Nat := (p.evaluations.map (Evaluation.todo e)).sum

theorem todo_moved_lt {before after : List (Evaluation σ)} {t : Evaluation σ}
    (hsplit : p.evaluations = before ++ t :: after) (hended : t.hasEnded = false) (aware : Bool) :
    (p.moved e fresh aware before t after).todo e < p.todo e := by
  have hless := Evaluation.todo_turn_lt (e := e) hended (fresh p.asked) (aware && p.stopped)
  simp only [todo, moved, hsplit, List.map_append, List.map_cons, List.sum_append, List.sum_cons]
  omega

/-- If not all evaluations have ended, the first that has not can move.  Nothing holds it up,
since a limit only counts those before it. -/
theorem exists_possible (e : Evaluator σ) (h : p.settled = false) :
    ∃ before t after, p.evaluations = before ++ t :: after ∧ t.hasEnded = false ∧
      p.mayMove e.concurrency before.length t = true := by
  rw [settled, List.all_eq_false] at h
  obtain ⟨t₀, hmem, hnot⟩ := h
  obtain ⟨t, hfind⟩ : ∃ t, p.evaluations.find? (fun t => !t.hasEnded) = some t := by
    rw [← Option.isSome_iff_exists, List.find?_isSome]
    exact ⟨t₀, hmem, by simpa using hnot⟩
  obtain ⟨hended, before, after, hsplit, hbefore⟩ := List.find?_eq_some_iff_append.mp hfind
  refine ⟨before, t, after, hsplit, by simpa using hended, ?_⟩
  have hcount : (p.evaluations.take before.length).countP (fun t => !t.hasEnded) = 0 := by
    rw [hsplit, List.take_left, List.countP_eq_zero]
    simpa using hbefore
  have hbegin : p.mayBegin e.concurrency before.length = true := by
    rw [mayBegin, hcount, Bool.or_eq_true, decide_eq_true_eq, decide_eq_true_eq]
    by_cases hlimit : e.concurrency ≤ 0
    · exact .inl hlimit
    · right
      rw [Int64.le_iff_toInt_le, Int64.toInt_zero, Int.not_le] at hlimit
      omega
  rw [mayMove, hended, hbegin, Bool.or_true, Bool.and_self]

theorem follow_append (schedule more : List Turn) :
    p.follow e fresh (schedule ++ more) = (p.follow e fresh schedule).follow e fresh more :=
  List.foldl_append

/-- Every pool can be settled. -/
theorem exists_settled (e : Evaluator σ) (fresh : Nat → Option σ) (p : Pool σ) :
    ∃ schedule, (p.follow e fresh schedule).settled = true := by
  induction htodo : p.todo e using Nat.strongRecOn generalizing p with
  | ind n ih =>
      cases hsettled : p.settled with
      | true => exact ⟨[], hsettled⟩
      | false =>
          obtain ⟨before, t, after, hsplit, hended, hmove⟩ := exists_possible e hsettled
          have hless : (p.moved e fresh true before t after).todo e < p.todo e :=
            todo_moved_lt hsplit hended true
          obtain ⟨schedule, hschedule⟩ := ih _ (htodo ▸ hless) _ rfl
          rw [← turn_eq_moved hsplit hmove] at hschedule
          exact ⟨⟨before.length, true⟩ :: schedule, hschedule⟩

end Pool

/-! ## What a settled pool comes to -/

/-- An evaluation that has ended on a new game like all others has the result that it would have
alone. -/
theorem Evaluation.Faithful.result_eq {t : Evaluation σ} {k : Nat} {s : σ}
    (h : t.Faithful e fresh k) (hp : Program t.program) (hended : t.hasEnded = true)
    (hfresh : ∀ i < k, fresh i = some s) :
    t.result? e = some (t.number, e.grade s (t.number, t.program)) := by
  have hwet : ¬ Dry fresh k := by
    rintro ⟨i, hi, hnone⟩
    rw [hfresh i hi] at hnone
    cases hnone
  obtain ⟨n, a, p⟩ := t
  change p.Faithful e fresh k n a at h
  cases h with
  | waiting => cases hended
  | playing => cases hended
  | noGame hdry => exact absurd hdry hwet
  | complete hi hgame =>
      cases (hfresh _ hi).symm.trans hgame
      simp only [result?, Job.outcome_alone e s hp]
  | calledOff hdry => exact absurd hdry hwet

namespace Pool.Faithful

variable {p : Pool σ} {programs : List Form}

theorem asked_eq {pairs : List (Nat × Form)} (h : p.Faithful e fresh pairs)
    (hsettled : p.settled = true) : p.asked = pairs.length := by
  rw [settled, List.all_eq_true] at hsettled
  rw [h.asked, ← h.labels, List.length_map, List.countP_eq_length]
  intro t ht
  obtain ⟨n, a, q⟩ := t
  cases q with
  | waiting => exact absurd (hsettled _ ht) Bool.false_ne_true
  | playing => rfl
  | ended => rfl

/-- On new games that are all the same, every program gets the result of its own evaluation. -/
theorem outcome_eq_ok (h : p.Faithful e fresh (distinct programs)) (hsettled : p.settled = true)
    (hvalid : ∀ a ∈ programs, Program a) {s : σ} (hfresh : ∀ k < p.asked, fresh k = some s) :
    p.outcome e programs = .ok (e.grades s programs) := by
  have hpairs : ∀ q ∈ distinct programs, Program q.2 :=
    fun q hq => hvalid q.2 ((mem_distinct_iff hvalid).mp hq).1
  have hnone : p.failure? = none := by
    rw [← Option.not_isSome_iff_eq_none, h.failure_iff]
    rintro ⟨k, hk, hnone⟩
    rw [hfresh k hk] at hnone
    cases hnone
  have hresults : p.evaluations.filterMap (Evaluation.result? e) =
      (distinct programs).map fun q => (q.1, e.grade s q) := by
    rw [← h.labels, List.map_map]
    rw [settled, List.all_eq_true] at hsettled
    exact Eq.trans
      (List.filterMap_congr fun t ht =>
        (h.evaluations t ht).result_eq (h.program hpairs ht) (hsettled t ht) hfresh)
      (congrFun List.filterMap_eq_map p.evaluations)
  rw [outcome, hnone]
  simp only [hresults, handOut_alone e s hvalid]

/-- Without a game for everybody, the batch fails with the error of one that got none. -/
theorem outcome_eq_error (h : p.Faithful e fresh (distinct programs)) (hdry : Dry fresh p.asked) :
    ∃ n ∈ (distinct programs).map Prod.fst, p.outcome e programs = .error (.noGame n) := by
  obtain ⟨err, herr⟩ := Option.isSome_iff_exists.mp (h.failure_iff.mpr hdry)
  obtain ⟨n, hn, rfl⟩ := h.noGame err herr
  exact ⟨n, hn, by rw [outcome, herr]⟩

end Pool.Faithful

theorem Evaluator.poolAfter_faithful {programs : List Form} (hq : e.Quiet)
    (hvalid : ∀ a ∈ programs, Program a) (fresh : Nat → Option σ) (schedule : List Turn) :
    (e.poolAfter fresh programs schedule).Faithful e fresh (distinct programs) :=
  (Pool.ofPrograms_faithful hq fresh _).follow hq
    (fun q hq => hvalid q.2 ((mem_distinct_iff hvalid).mp hq).1) schedule

theorem Evaluator.exists_settled_after (e : Evaluator σ) (fresh : Nat → Option σ)
    (programs : List Form) (schedule : List Turn) :
    ∃ more, (e.poolAfter fresh programs (schedule ++ more)).settled = true := by
  obtain ⟨more, hmore⟩ := Pool.exists_settled e fresh (e.poolAfter fresh programs schedule)
  rw [poolAfter, ← Pool.follow_append] at hmore
  exact ⟨more, hmore⟩

/-- Whatever the schedule of a batch of valid programs that nobody calls off from outside, it can
be continued until all evaluations have ended, and then the order did not matter.  If all games
start alike, the results are those of the evaluations one after another.  If some game was not to
be had, the batch fails for want of a game for a program that is the first of its kind, although
others may have been called off. -/
theorem Evaluator.outcome_of_schedule {programs : List Form} (hq : e.Quiet)
    (hvalid : ∀ a ∈ programs, a.validate = .ok ()) (hsupply : e.supply = some fresh)
    (schedule : List Turn) :
    (∃ more, (e.poolAfter fresh programs (schedule ++ more)).settled = true) ∧
    let p := e.poolAfter fresh programs schedule
    (p.settled = true →
      (∀ s, (∀ k < p.asked, fresh k = some s) →
        ∃ results, p.outcome e programs = .ok results ∧
          (e.evaluate (programs.map some)).outcome = .ok results) ∧
      ((∃ k < p.asked, fresh k = none) →
        ∃ n a, programs[n]? = some a ∧ (∀ j < n, programs[j]? ≠ some a) ∧
          p.outcome e programs = .error (.noGame n) ∧
          (BatchError.noGame n).message =
            "program " ++ toString n ++ ": fitness: NewEnvironment returned nil")) := by
  have hprogram : ∀ a ∈ programs, Program a :=
    fun a ha => Form.validate_eq_ok_iff.mp (hvalid a ha)
  have hpool := poolAfter_faithful hq hprogram fresh schedule
  refine ⟨e.exists_settled_after fresh programs schedule, ?_⟩
  intro p hsettled
  constructor
  · intro s hfresh
    refine ⟨e.grades s programs, hpool.outcome_eq_ok hsettled hprogram hfresh, ?_⟩
    rw [hpool.asked_eq hsettled] at hfresh
    exact (evaluate_eq hq hprogram hsupply hfresh).2
  · intro hdry
    obtain ⟨n, hn, herror⟩ := hpool.outcome_eq_error hdry
    obtain ⟨⟨n, a⟩, hmem, rfl⟩ := List.mem_map.mp hn
    obtain ⟨hget, hfirst⟩ := first_of_mem_distinct hprogram hmem
    refine ⟨n, a, hget, hfirst, herror, ?_⟩
    simp only [BatchError.message, programLabel, String.append_assoc]
    rfl

/-- Move to the left and back. -/
def sway : Form := Form.prog2 (Leaf.move .left).node (Leaf.move .right).node

theorem sway_valid : sway.validate = .ok () :=
  Form.validate_eq_ok_iff.mpr (.prog2 (.leaf _) (.leaf _))

theorem valid_of_mem_encore {a : Form} (ha : a ∈ [duelist, sway, duelist]) :
    a.validate = .ok () := by
  simp only [List.mem_cons, List.not_mem_nil, or_false] at ha
  rcases ha with rfl | rfl | rfl
  · exact duelist_valid
  · exact sway_valid
  · exact duelist_valid

/-- One game, for the first that asks. -/
def oneGame (k : Nat) : Option Scripted :=
  if k = 0 then some ⟨{}, [], 0, 0, rfl⟩ else none

/-- The second evaluation gets the only game, and then the first finds none.  The second one is
called off after that, but the batch fails with the error of the first. -/
theorem Evaluator.outcome_of_oneGame :
    let e : Evaluator Scripted := { env := scriptedGame, supply := some oneGame }
    let p := e.poolAfter oneGame [duelist, sway, duelist] [⟨1, true⟩, ⟨0, true⟩, ⟨1, true⟩]
    p.evaluations.map (Evaluation.failure? e) = [some (.noGame 0), some (.cancelled 1)] ∧
      ∃ n a, [duelist, sway, duelist][n]? = some a ∧
        (∀ j < n, [duelist, sway, duelist][j]? ≠ some a) ∧
        p.outcome e [duelist, sway, duelist] = .error (.noGame n) ∧
        (BatchError.noGame n).message =
          "program " ++ toString n ++ ": fitness: NewEnvironment returned nil" := by
  intro e p
  have hsettled : p.settled = true := by decide +kernel
  have hasked : 1 < p.asked := by decide +kernel
  obtain ⟨-, hend⟩ := Evaluator.outcome_of_schedule (e := e) ⟨rfl, fun _ => rfl⟩
    (fun _ ha => valid_of_mem_encore ha) rfl [⟨1, true⟩, ⟨0, true⟩, ⟨1, true⟩]
  exact ⟨by decide +kernel, (hend hsettled).2 ⟨1, hasked, rfl⟩⟩

end Stepwise.Fitness
