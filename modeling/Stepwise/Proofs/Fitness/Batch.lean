import Mathlib.Data.List.Dedup
import Stepwise.Fitness.Schedule
import Stepwise.Proofs.Machine.Safety
import Stepwise.Proofs.Tree.Reading

/-!
# A batch evaluates every program as if it were alone

Programs of a batch are grouped by their texts.  For valid programs that is grouping by the
programs themselves, since different programs have different texts (`owners_eq`).  The first of
a group stands for it (`mem_distinct_iff`), so every program gets the result of its own
evaluation, whichever of its group was evaluated, and that result names it and no other of the
group (`handOut_alone`).

When nobody calls off the batch and every evaluation gets the same new game, the evaluations
are those that would be made of the programs one by one (`Evaluator.evaluate_eq`).
-/

namespace Stepwise.Fitness

variable {σ : Type} {env : Environment σ} {e : Evaluator σ} {s : σ} {programs : List Form}

/-! ## One program -/

theorem playOn_over {cancelled : Nat → σ → Bool} {m : Machine σ} {left : Nat}
    (h : env.finished m.state = true ∨ left = 0) (done : Nat) :
    playOn env cancelled left done m = (.complete, m) := by
  unfold playOn
  obtain h | rfl := h
  · rw [if_pos h]
  · split <;> rfl

/-- An open game is played on, unless it is time to look and the evaluation was called off. -/
theorem playOn_unseen {cancelled : Nat → σ → Bool} {m m' : Machine σ} {t : Transition} {done : Nat}
    (h : ¬ env.finished m.state = true)
    (hlook : done % checkEvery = 0 → cancelled done m.state = false)
    (hstep : m.step env = (m', .ok t)) (left : Nat) :
    playOn env cancelled (left + 1) done m = playOn env cancelled left (done + 1) m' := by
  have hunseen : ¬ (done % checkEvery = 0 && cancelled done m.state) = true := by
    simpa using hlook
  rw [playOn, if_neg h]
  simp only [if_neg hunseen, hstep]

theorem playOn_succ {m m' : Machine σ} {t : Transition} (h : ¬ env.finished m.state = true)
    (hstep : m.step env = (m', .ok t)) (left done : Nat) :
    playOn env (fun _ _ => false) (left + 1) done m =
      playOn env (fun _ _ => false) left (done + 1) m' :=
  playOn_unseen h (fun _ => rfl) hstep left

/-- An evaluation that nobody calls off is complete in the end, if the machine is sound. -/
theorem playOn_complete {m : Machine σ} (h : m.Sound) (left done : Nat) :
    (playOn env (fun _ _ => false) left done m).1 = .complete := by
  induction left generalizing done m with
  | zero => rw [playOn_over (.inr rfl)]
  | succ left ih =>
      obtain ⟨m', t, hstep, hm'⟩ := h.step_ok env
      by_cases hover : env.finished m.state = true
      · rw [playOn_over (.inl hover)]
      · rw [playOn_succ hover hstep]
        exact ih hm' (done + 1)

/-- Nobody calls off the batch from outside. -/
structure Evaluator.Quiet (e : Evaluator σ) : Prop where
  cancelled : e.cancelled = false
  trips : ∀ s, e.trips s = false

/-- The evaluation of one program on a new game in state `s`. -/
def Evaluator.alone (e : Evaluator σ) (s : σ) (a : Form) : Run σ :=
  Run.play e.env e.maxSteps (fun _ _ => false) a s

theorem Evaluator.alone_ending (e : Evaluator σ) (s : σ) {a : Form} (hp : Program a) :
    (e.alone s a).ending = .complete :=
  playOn_complete (.new hp s) _ _

/-- A valid program is played. -/
theorem run_of_program {a : Form} (hp : Program a) (env : Environment σ) (maxSteps : Int64)
    (cancelled : Nat → σ → Bool) (s : σ) :
    run env maxSteps cancelled (some a) (some s) = .ok (Run.play env maxSteps cancelled a s) := by
  have hvalid : validateProgram (some a) = .ok a := by
    rw [validateProgram, Form.validate_eq_ok_iff.mpr hp]
    rfl
  simp only [run, hvalid]

/-- A valid program is evaluated alone with a result. -/
theorem Evaluator.run_eq (e : Evaluator σ) (s : σ) {a : Form} (hp : Program a) :
    Fitness.run e.env e.maxSteps (fun _ _ => false) (some a) (some s) = .ok (e.alone s a) ∧
      (e.alone s a).outcome e.env = .ok ((e.alone s a).report e.env) := by
  refine ⟨run_of_program hp .., ?_⟩
  rw [Run.outcome, e.alone_ending s hp]

/-! ## Groups -/

theorem validateBatch_eq (h : ∀ a ∈ programs, Program a) (n : Nat) :
    validateBatch n (programs.map some) = .ok programs := by
  induction programs generalizing n with
  | nil => rfl
  | cons a programs ih =>
      have ha : a.validate = .ok () := Form.validate_eq_ok_iff.mpr (h a (by simp))
      rw [List.map_cons, validateBatch, validateProgram, ha]
      simp only [Except.map]
      rw [ih (fun a ha => h a (by simp [ha])) (n + 1)]

/-- Where a text is found first is where its program is found first. -/
theorem idxOf_text {a : Form} (ha : Program a) (h : ∀ b ∈ programs, Program b) :
    (programs.map Form.text).idxOf a.text = programs.idxOf a := by
  induction programs with
  | nil => rfl
  | cons b programs ih =>
      have hrest := ih fun c hc => h c (by simp [hc])
      by_cases hab : b = a
      · subst hab
        rw [List.map_cons, List.idxOf_cons_self, List.idxOf_cons_self]
      · have htext : b.text ≠ a.text := fun htext => hab ((h b (by simp)).text_inj ha htext)
        rw [List.map_cons, List.idxOf_cons_ne _ htext, List.idxOf_cons_ne _ hab, hrest]

theorem owners_eq (h : ∀ a ∈ programs, Program a) :
    owners programs = programs.map fun a => programs.idxOf a := by
  rw [owners, List.map_map]
  exact List.map_congr_left fun a ha => idxOf_text (h a ha) h

/-- A program stands for its group if it is the first of its kind. -/
theorem mem_distinct_iff (h : ∀ a ∈ programs, Program a) {n : Nat} {a : Form} :
    (n, a) ∈ distinct programs ↔ a ∈ programs ∧ programs.idxOf a = n := by
  have hzip : (owners programs).zip programs = programs.map fun a => (programs.idxOf a, a) := by
    rw [owners_eq h, List.map_prod_right_eq_zip]
  rw [distinct, hzip, List.zipIdx_map, List.filterMap_map, List.mem_filterMap]
  constructor
  · rintro ⟨⟨b, m⟩, hb, hfirst⟩
    rw [List.mk_mem_zipIdx_iff_getElem?] at hb
    simp only [Function.comp, Prod.map, id] at hfirst
    split at hfirst
    next hm =>
        cases hfirst
        exact ⟨List.mem_of_getElem? hb, hm⟩
    next => cases hfirst
  · rintro ⟨ha, rfl⟩
    refine ⟨(a, programs.idxOf a), ?_, by simp⟩
    rw [List.mk_mem_zipIdx_iff_getElem?]
    exact List.getElem?_idxOf ha

theorem first_of_mem_distinct (h : ∀ a ∈ programs, Program a) {n : Nat} {a : Form}
    (hmem : (n, a) ∈ distinct programs) :
    programs[n]? = some a ∧ ∀ j < n, programs[j]? ≠ some a := by
  obtain ⟨ha, rfl⟩ := (mem_distinct_iff h).mp hmem
  refine ⟨List.getElem?_idxOf ha, fun j hj heq => ?_⟩
  obtain ⟨hlength, hget⟩ := List.getElem?_eq_some_iff.mp heq
  have hne := List.not_of_lt_findIdx hj
  simp [hget] at hne

theorem nodup_distinct (programs : List Form) : (distinct programs).Nodup := by
  rw [distinct]
  apply List.Nodup.filterMap
  · rintro ⟨⟨o, a⟩, n⟩ ⟨⟨o', a'⟩, n'⟩ ⟨m, b⟩ hn hn'
    grind
  · exact List.Nodup.of_map Prod.snd (by rw [List.zipIdx_map_snd]; exact List.nodup_range')

/-- The programs that are evaluated are those of the batch, each of them once. -/
theorem distinct_perm_dedup (h : ∀ a ∈ programs, Program a) :
    ((distinct programs).map Prod.snd).Perm programs.dedup := by
  have hinj : ∀ x ∈ distinct programs, ∀ y ∈ distinct programs, x.2 = y.2 → x = y := by
    rintro ⟨n, a⟩ hx ⟨m, b⟩ hy hab
    obtain ⟨-, rfl⟩ := (mem_distinct_iff h).mp hx
    obtain ⟨-, rfl⟩ := (mem_distinct_iff h).mp hy
    cases hab
    rfl
  have hnodup : ((distinct programs).map Prod.snd).Nodup :=
    (nodup_distinct programs).map_on hinj
  rw [List.perm_ext_iff_of_nodup hnodup (List.nodup_dedup programs)]
  intro a
  rw [List.mem_dedup, List.mem_map]
  constructor
  · rintro ⟨⟨n, b⟩, hmem, rfl⟩
    exact ((mem_distinct_iff h).mp hmem).1
  · intro ha
    exact ⟨(programs.idxOf a, a), (mem_distinct_iff h).mpr ⟨ha, rfl⟩, rfl⟩

/-- Where every group has a result, a program finds that of its group under the first number. -/
theorem lookup_distinct (h : ∀ a ∈ programs, Program a) (R : Nat × Form → Graded) {a : Form}
    (ha : a ∈ programs) :
    ((distinct programs).map fun q => (q.1, R q)).lookup (programs.idxOf a) =
      some (R (programs.idxOf a, a)) := by
  -- A number is looked up as an argument of the function that sends it to its program's result.
  let f : Nat → Graded := fun n => R (n, programs[n]?.getD [])
  have hgraph : ((distinct programs).map fun q => (q.1, R q)) =
      ((distinct programs).map Prod.fst).map fun n => (n, f n) := by
    rw [List.map_map]
    refine List.map_congr_left ?_
    rintro ⟨n, b⟩ hmem
    simp [f, (first_of_mem_distinct h hmem).1]
  have hmem : programs.idxOf a ∈ (distinct programs).map Prod.fst :=
    List.mem_map.mpr ⟨(_, a), (mem_distinct_iff h).mpr ⟨ha, rfl⟩, rfl⟩
  rw [hgraph, List.lookup_graph f hmem]
  simp only [f, List.getElem?_idxOf ha, Option.getD_some]

/-- If every group has a result, every program gets that of its group, and a copy if another
stands for the group. -/
theorem handOut_eq (h : ∀ a ∈ programs, Program a) (R : Nat × Form → Graded) :
    handOut programs ((distinct programs).map fun q => (q.1, R q)) =
      programs.zipIdx.map fun (a, n) =>
        if programs.idxOf a = n then R (n, a) else (R (programs.idxOf a, a)).copyFor n a := by
  have hzip : programs.zip (owners programs) = programs.map fun a => (a, programs.idxOf a) := by
    rw [owners_eq h, List.map_prod_left_eq_zip]
  rw [handOut, hzip, List.zipIdx_map, List.filterMap_map]
  refine Eq.trans (List.filterMap_congr ?_) (congrFun List.filterMap_eq_map programs.zipIdx)
  rintro ⟨a, n⟩ hn
  have ha : a ∈ programs := List.mem_of_getElem? (List.mk_mem_zipIdx_iff_getElem?.mp hn)
  simp only [Function.comp, Prod.map, id, lookup_distinct h R ha, Option.map_some]
  split
  next hfirst => rw [hfirst]
  next => rfl

/-! ## One after another -/

/-- The result of a program that stands for its group, which is evaluated alone. -/
def Evaluator.grade (e : Evaluator σ) (s : σ) (q : Nat × Form) : Graded where
  result := (e.alone s q.2).report e.env
  number := q.1
  owner := q.1

/-- A complete evaluation gives its result. -/
theorem Job.outcome_alone (e : Evaluator σ) (s : σ) {a : Form} (hp : Program a) (n : Nat) :
    Job.outcome e.env ⟨n, some (e.alone s a)⟩ = .ok (e.grade s (n, a)) := by
  simp only [Job.outcome, e.alone_ending s hp, Evaluator.grade]

theorem Evaluator.jobs_eq (hq : e.Quiet) {fresh : Nat → Option σ} {pairs : List (Nat × Form)}
    (h : ∀ p ∈ pairs, Program p.2) {k : Nat}
    (hfresh : ∀ i < pairs.length, fresh (k + i) = some s) :
    e.jobs fresh k false pairs = pairs.map fun q => ⟨q.1, some (e.alone s q.2)⟩ := by
  induction pairs generalizing k with
  | nil => rfl
  | cons p pairs ih =>
      obtain ⟨n, a⟩ := p
      have hgame : fresh k = some s := hfresh 0 (by simp)
      have ha : Program a := h (n, a) (by simp)
      have hjob : Job.callsOff e ⟨n, some (e.alone s a)⟩ = false := by
        simp only [Job.callsOff, Job.outcome_alone e s ha n, hq.trips, Bool.or_self]
      have hrest := ih (fun p hp => h p (by simp [hp])) (k := k + 1) fun i hi => by
        rw [Nat.add_assoc, Nat.add_comm 1 i]
        exact hfresh (i + 1) (by simpa using hi)
      rw [Evaluator.jobs]
      simp only [hgame, Option.map_some, hq.trips, Bool.false_or, List.map_cons]
      rw [show Run.play e.env e.maxSteps (fun _ _ => false) a s = e.alone s a from rfl, hjob, hrest]

theorem collect_eq (e : Evaluator σ) (s : σ) {pairs : List (Nat × Form)}
    (h : ∀ p ∈ pairs, Program p.2) :
    collect e.env (pairs.map fun q => ⟨q.1, some (e.alone s q.2)⟩) =
      .ok (pairs.map fun q => (q.1, e.grade s q)) := by
  induction pairs with
  | nil => rfl
  | cons p pairs ih =>
      rw [List.map_cons, collect, Job.outcome_alone e s (h p (by simp)) p.1]
      simp only [ih fun p hp => h p (by simp [hp])]
      rfl

/-- The results of a batch whose programs are evaluated alone, all on the same new game.  Each
names its own program, and comes from the first program that is the same. -/
def Evaluator.grades (e : Evaluator σ) (s : σ) (programs : List Form) : List Graded :=
  programs.zipIdx.map fun (a, n) =>
    { result := (e.alone s a).report e.env, number := n, owner := programs.idxOf a }

theorem Evaluator.length_grades (e : Evaluator σ) (s : σ) (programs : List Form) :
    (e.grades s programs).length = programs.length := by
  simp [grades]

theorem Evaluator.getElem?_grades (e : Evaluator σ) (s : σ) {n : Nat} {a : Form}
    (h : programs[n]? = some a) :
    (e.grades s programs)[n]? = some ⟨(e.alone s a).report e.env, n, programs.idxOf a⟩ := by
  simp [grades, List.getElem?_zipIdx, h]

theorem handOut_alone (e : Evaluator σ) (s : σ) (h : ∀ a ∈ programs, Program a) :
    handOut programs ((distinct programs).map fun q => (q.1, e.grade s q)) =
      e.grades s programs := by
  rw [handOut_eq h (e.grade s), Evaluator.grades]
  refine List.map_congr_left ?_
  rintro ⟨a, n⟩ -
  dsimp only
  split
  next hfirst =>
      rw [hfirst]
      rfl
  next => rfl

/-- A batch that nobody calls off, on new games that are all the same, makes one evaluation
for each of its different programs and gives every program the result of its own. -/
theorem Evaluator.evaluate_eq (hq : e.Quiet) (h : ∀ a ∈ programs, Program a)
    {fresh : Nat → Option σ} (hsupply : e.supply = some fresh)
    (hfresh : ∀ k < (distinct programs).length, fresh k = some s) :
    (e.evaluate (programs.map some)).jobs =
        (distinct programs).map (fun q => ⟨q.1, some (e.alone s q.2)⟩) ∧
      (e.evaluate (programs.map some)).outcome = .ok (e.grades s programs) := by
  have hpairs : ∀ p ∈ distinct programs, Program p.2 :=
    fun p hp => h p.2 ((mem_distinct_iff h).mp hp).1
  have hjobs := Evaluator.jobs_eq hq hpairs (k := 0) (by simpa using hfresh)
  rw [Evaluator.evaluate, hsupply]
  simp only [validateBatch_eq h, hq.cancelled, hjobs, collect_eq e s hpairs]
  exact ⟨trivial, congrArg Except.ok (handOut_alone e s h)⟩

end Stepwise.Fitness
