import Stepwise.Proofs.Fitness.Schedule

/-!
# Programs that are the same share an evaluation

A batch gives every program the result that it would get alone, and makes one evaluation for
each of its different programs, in whatever order (`Evaluator.evaluate_shares`).

A result names its program by number, so that of the program with number `i` names `i`, also
where it is a copy of the result of another program that is the same.  Every evaluation draws an
identifier, and a result carries that of the evaluation it comes from.  So two programs have the
same identifier in their results if and only if they are the same.
-/

namespace Stepwise.Fitness

variable {σ : Type} {e : Evaluator σ} {s : σ} {programs : List Form}

/-- The identifier of the evaluation that gave a result, if the evaluation of the program with
number `n` drew `draw n`. -/
def Graded.runId {ι : Type} (draw : Nat → ι) (g : Graded) : ι := draw g.owner

/-- The evaluations of programs that are the same as `a`. -/
def Batch.jobsFor (b : Batch σ) (a : Form) : List (Job σ) :=
  b.jobs.filter fun j => j.run?.any fun r => Node.same (.form a) (.form r.program)

theorem same_form_iff {a b : Form} : Node.same (.form a) (.form b) = true ↔ a = b := by
  rw [Node.same_eq_true, Node.form.injEq]

theorem length_distinct (h : ∀ a ∈ programs, Program a) :
    (distinct programs).length = programs.dedup.length := by
  rw [← (distinct_perm_dedup h).length_eq, List.length_map]

/-- Exactly one program that is evaluated is the same as a given one. -/
theorem countP_distinct (h : ∀ a ∈ programs, Program a) {a : Form} (ha : a ∈ programs) :
    (distinct programs).countP (fun q => Node.same (.form a) (.form q.2)) = 1 := by
  have hcount : (distinct programs).countP (fun q => Node.same (.form a) (.form q.2)) =
      ((distinct programs).map Prod.snd).count a := by
    rw [List.count, List.countP_map]
    refine List.countP_congr fun q _ => ?_
    rw [same_form_iff, Function.comp, beq_iff_eq, eq_comm]
  rw [hcount, (distinct_perm_dedup h).count_eq]
  exact List.count_eq_one_of_mem (List.nodup_dedup programs) (List.mem_dedup.mpr ha)

/-- Identifiers tell programs apart, if the evaluations drew different ones. -/
theorem draw_idxOf_inj (h : ∀ a ∈ programs, Program a) {ι : Type} {draw : Nat → ι}
    (hdraw : ((distinct programs).map fun q => draw q.1).Nodup) {a b : Form} (ha : a ∈ programs)
    (hb : b ∈ programs) : draw (programs.idxOf a) = draw (programs.idxOf b) ↔ a = b := by
  constructor
  · intro heq
    have hpair := List.inj_on_of_nodup_map hdraw ((mem_distinct_iff h).mpr ⟨ha, rfl⟩)
      ((mem_distinct_iff h).mpr ⟨hb, rfl⟩) heq
    exact congrArg Prod.snd hpair
  · rintro rfl
    rfl

/-- A batch of valid programs on games that all start alike succeeds, in whatever order its
evaluations are made.  Every program gets the result of its own evaluation, which names that
very program and not another that is the same.  Results carry the same identifier if and only if
their programs are the same, and for each kind of program one game is asked for. -/
theorem Evaluator.evaluate_shares (hq : e.Quiet) (hvalid : ∀ a ∈ programs, a.validate = .ok ())
    (hsupply : e.supply = some fun _ => some s) :
    let b := e.evaluate (programs.map some)
    ∃ results, b.outcome = .ok results ∧
      (∀ schedule,
        (∃ more, (e.poolAfter (fun _ => some s) programs (schedule ++ more)).settled = true) ∧
        let p := e.poolAfter (fun _ => some s) programs schedule
        (p.settled = true → p.outcome e programs = .ok results ∧ p.asked = b.created)) ∧
      results.length = programs.length ∧
      (∀ (i : Nat) (a : Form), programs[i]? = some a →
        ∃ (g : Graded) (r : Run σ), results[i]? = some g ∧ g.number = i ∧ g.result.program = a ∧
        Fitness.run e.env e.maxSteps (fun _ _ => false) (some a) (some s) = .ok r ∧
        r.outcome e.env = .ok g.result) ∧
      (∀ (ι : Type) (draw : Nat → ι), (b.jobs.map fun j => draw j.number).Nodup →
        ∀ (i j : Nat) (a a' : Form) (g g' : Graded),
          programs[i]? = some a → programs[j]? = some a' →
          results[i]? = some g → results[j]? = some g' →
          (g.runId draw = g'.runId draw ↔ Node.same (.form a) (.form a') = true)) ∧
      b.created = programs.dedup.length ∧
      ∀ a ∈ programs, (b.jobsFor a).length = 1 := by
  have hprogram : ∀ a ∈ programs, Program a :=
    fun a ha => Form.validate_eq_ok_iff.mp (hvalid a ha)
  obtain ⟨hjobs, houtcome⟩ := evaluate_eq (s := s) hq hprogram hsupply fun _ _ => rfl
  have hcreated : (e.evaluate (programs.map some)).created = (distinct programs).length := by
    rw [Batch.created, hjobs, List.length_map]
  intro b
  refine ⟨e.grades s programs, houtcome, ?_, e.length_grades s programs, ?_, ?_, ?_, ?_⟩
  · intro schedule
    refine ⟨e.exists_settled_after _ programs schedule, ?_⟩
    intro p hsettled
    have hpool := poolAfter_faithful hq hprogram (fun _ => some s) schedule
    exact ⟨hpool.outcome_eq_ok hsettled hprogram fun _ _ => rfl,
      (hpool.asked_eq hsettled).trans hcreated.symm⟩
  · intro i a hi
    have hrun := e.run_eq s (hprogram a (List.mem_of_getElem? hi))
    exact ⟨_, e.alone s a, e.getElem?_grades s hi, rfl, rfl, hrun.1, hrun.2⟩
  · intro ι draw hdraw i j a a' g g' hi hj hg hg'
    obtain rfl : _ = g := Option.some.inj ((e.getElem?_grades s hi).symm.trans hg)
    obtain rfl : _ = g' := Option.some.inj ((e.getElem?_grades s hj).symm.trans hg')
    rw [hjobs, List.map_map] at hdraw
    rw [same_form_iff]
    exact draw_idxOf_inj hprogram hdraw (List.mem_of_getElem? hi) (List.mem_of_getElem? hj)
  · rw [hcreated, length_distinct hprogram]
  · intro a ha
    rw [Batch.jobsFor, hjobs, ← List.countP_eq_length_filter, List.countP_map]
    exact countP_distinct hprogram ha

/-- Of three programs, the first and the last are the same.  Their results come from one
evaluation, and each names its own program. -/
theorem Evaluator.evaluate_shares_encore :
    let e : Evaluator Scripted :=
      { env := scriptedGame
        supply := some fun _ => some ⟨{ finishAfter := 1 }, [], 0, 0, rfl⟩
        maxSteps := 9, concurrency := 2 }
    let b := e.evaluate ([duelist, sway, duelist].map some)
    b.jobs.map Job.number = [0, 1] ∧ b.created = 2 ∧ (b.jobsFor duelist).length = 1 ∧
      ∃ results g g', b.outcome = .ok results ∧ results[0]? = some g ∧ results[2]? = some g' ∧
        g.result.program = duelist ∧ g.runId id = g'.runId id ∧ g.number = 0 ∧ g'.number = 2 := by
  intro e b
  obtain ⟨results, houtcome, -, -, hget, hids, -, hjobs⟩ := Evaluator.evaluate_shares
    (e := e) ⟨rfl, fun _ => rfl⟩ (fun _ ha => valid_of_mem_encore ha) rfl
  obtain ⟨g, -, hg, hnumber, hprogram, -⟩ := hget 0 duelist rfl
  obtain ⟨g', -, hg', hnumber', -⟩ := hget 2 duelist rfl
  have hsame : g.runId id = g'.runId id :=
    (hids Nat id (by decide +kernel) 0 2 duelist duelist g g' rfl rfl hg hg').mpr
      (same_form_iff.mpr rfl)
  exact ⟨by decide +kernel, by decide +kernel, hjobs duelist (by simp), results, g, g', houtcome,
    hg, hg', hprogram, hsame, hnumber, hnumber'⟩

end Stepwise.Fitness
