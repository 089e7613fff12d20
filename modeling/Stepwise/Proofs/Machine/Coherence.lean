import Mathlib.Data.List.Chain
import Stepwise.Machine.Run
import Stepwise.Proofs.Machine.Slots

/-!
# The pending frames lie inside each other

The frames of a machine are the forms on a path into its program, from the root to the
form that is evaluated now.  Each of them but the innermost waits at the operand that is
the next form on the path.  Together with what the slots hold (`Frame.Coherent`) this is
`Stack.Coherent`.

The rules keep it (`Stack.Coherent.rule`), and a step that fails touches no frame.  So it
holds of every machine that can be reached (`Machine.performAll_coherent`), whatever the
program is and whatever the game answers.

As the path goes down the tree, there are no more frames than the program is deep
(`Stack.Coherent.length_add_depth_le`).
-/

namespace Stepwise

variable {σ : Type} {env : Environment σ} {program : Form}

/-- The frame waits at an operand that it takes, for the result of the form `a`. -/
def Frame.Hosts (g : Frame) (a : Form) : Prop :=
  ∃ c k, g.At c k ∧ g.takes c k = true ∧ g.scope.operand? k = some (.form a)

/-- Pending frames, the innermost first, that lie inside each other. -/
structure Stack.Coherent (stack : Stack Frame) (program : Form) : Prop where
  /-- The outermost frame is that of the program. -/
  outermost : ∀ f, stack.getLast? = some f → f.scope = program
  /-- Every frame but the innermost waits for the next. -/
  nested : stack.IsChain fun inner outer => outer.Hosts inner.scope
  /-- The slots of every frame are in order. -/
  frames : ∀ f ∈ stack, f.Coherent

namespace Stack.Coherent

variable {f g : Frame} {below : Stack Frame} {a : Form}

theorem empty : Stack.Coherent [] program where
  outermost _ h := by cases h
  nested := .nil
  frames _ h := by cases h

theorem singleton (hf : f.Coherent) (hscope : f.scope = program) :
    Stack.Coherent [f] program where
  outermost g h := by
    obtain rfl : f = g := by simpa using h
    exact hscope
  nested := .singleton f
  frames g h := by
    obtain rfl := List.mem_singleton.mp h
    exact hf

theorem top (h : Stack.Coherent (f :: below) program) : f.Coherent :=
  h.frames f (List.mem_cons_self ..)

theorem tail (h : Stack.Coherent (f :: below) program) : Stack.Coherent below program where
  outermost g hg := by
    cases below with
    | nil => cases hg
    | cons _ _ => exact h.outermost g (by rwa [List.getLast?_cons_cons])
  nested := by
    cases below with
    | nil => exact .nil
    | cons _ _ => exact (List.isChain_cons_cons.mp h.nested).2
  frames g hg := h.frames g (List.mem_cons_of_mem f hg)

theorem push (h : Stack.Coherent (f :: below) program) (hosts : f.Hosts a) :
    Stack.Coherent (.enter a :: f :: below) program where
  outermost g hg := h.outermost g (by rwa [List.getLast?_cons_cons] at hg)
  nested := .cons_cons hosts h.nested
  frames g hg := by
    rcases List.mem_cons.mp hg with rfl | hg
    · exact Frame.enter_coherent a
    · exact h.frames g hg

/-- What happens inside the innermost frame does not touch the others. -/
theorem replace (h : Stack.Coherent (f :: below) program) (hg : g.Coherent)
    (hscope : g.scope = f.scope) : Stack.Coherent (g :: below) program := by
  cases below with
  | nil =>
      have hf : f.scope = program := h.outermost f rfl
      exact .singleton hg (hscope.trans hf)
  | cons f' outer =>
      obtain ⟨hosts, hrest⟩ := List.isChain_cons_cons.mp h.nested
      constructor
      case outermost =>
        intro x hx
        rw [List.getLast?_cons_cons] at hx
        exact h.tail.outermost x hx
      case nested => exact .cons_cons (hscope ▸ hosts) hrest
      case frames =>
        intro x hx
        rcases List.mem_cons.mp hx with rfl | hx
        · exact hg
        · exact h.tail.frames x hx

/-- Every rule keeps the frames inside each other. -/
theorem rule {stack stack' : Stack Frame} {s s' : σ} {e : Event}
    (hr : Rule env program stack s e stack' s') (h : stack.Coherent program) :
    stack'.Coherent program := by
  cases hr with
  | start => exact .singleton (Frame.enter_coherent program) rfl
  | enter hat htakes hn => exact h.push ⟨_, _, hat, htakes, hn⟩
  | act hat htakes _ _ =>
      exact h.replace (h.top.fill hat (by simp [Value.ofBool, htakes])) rfl
  | observe hat htakes _ _ =>
      exact h.replace (h.top.fill hat (by simp [htakes])) rfl
  | skip hat htakes =>
      refine h.replace ?_ rfl
      rw [hat.passed_eq_fill h.top]
      exact h.top.fill hat (by simp [htakes])
  | resolve hcur hc => exact h.replace (h.top.finishWith hcur hc) rfl
  | @handBack f g outer _ hcur =>
      -- The frame below waits for this result, at an operand that its operator takes.
      obtain ⟨c, k, hat, htakes, -⟩ := (List.isChain_cons_cons.mp h.nested).1
      obtain ⟨-, -, -, hsome⟩ := h.top.finished hcur
      rw [hat.operandNumber_eq]
      exact h.tail.replace (h.tail.top.fill hat (by simp [hsome, htakes])) rfl
  | round => exact .empty

end Stack.Coherent

/-! ## What can be done with a machine -/

/-- What can be done with a machine. -/
inductive Operation where
  | step
  | runTick
  | reset
deriving DecidableEq, Repr

namespace Machine

/-- The machine after an operation, also if a step failed in it. -/
def perform (env : Environment σ) (m : Machine σ) : Operation → Machine σ
  | .step => (m.step env).1
  | .runTick => (m.runTick env).1
  | .reset => m.reset

/-- The machine after one operation after another. -/
def performAll (env : Environment σ) (m : Machine σ) (ops : List Operation) : Machine σ :=
  ops.foldl (perform env) m

@[simp] theorem performAll_cons (m : Machine σ) (op : Operation) (ops : List Operation) :
    m.performAll env (op :: ops) = (m.perform env op).performAll env ops := rfl

/-- The machine after `n` more steps, also if some of them fail. -/
def afterSteps (env : Environment σ) (m : Machine σ) (n : Nat) : Machine σ :=
  m.performAll env (List.replicate n .step)

theorem afterSteps_succ (m : Machine σ) (n : Nat) :
    m.afterSteps env (n + 1) = (m.step env).1.afterSteps env n := rfl

theorem afterSteps_add (m : Machine σ) (n k : Nat) :
    m.afterSteps env (n + k) = (m.afterSteps env n).afterSteps env k := by
  rw [afterSteps, List.replicate_add, performAll, List.foldl_append]
  rfl

/-- What every step keeps is kept by running to a tick. -/
theorem untilTick_induction {P : Machine σ → Prop} (hstep : ∀ m, P m → P (m.step env).1) :
    ∀ (fuel : Nat) (m : Machine σ), P m → P (untilTick env fuel m).1
  | 0, _, h => h
  | fuel + 1, m, h => by
      have h' := hstep m h
      rw [untilTick]
      cases hs : m.step env with
      | mk m' r =>
          rw [hs] at h'
          cases r with
          | error e => exact h'
          | ok t =>
              simp only
              split
              · exact h'
              · exact untilTick_induction hstep fuel m' h'

theorem runTick_fst (m : Machine σ) : (m.runTick env).1 = (untilTick env m.stepBound m).1 := by
  unfold runTick
  split
  next hu => rw [hu]
  next hu => rw [hu]

theorem perform_induction {P : Machine σ → Prop} (hstep : ∀ m, P m → P (m.step env).1)
    (hreset : ∀ m, P m → P m.reset) (m : Machine σ) (op : Operation) (h : P m) :
    P (m.perform env op) := by
  cases op with
  | step => exact hstep m h
  | reset => exact hreset m h
  | runTick =>
      show P (m.runTick env).1
      rw [runTick_fst]
      exact untilTick_induction hstep m.stepBound m h

/-- What holds of a new machine and is kept by every step and by a reset holds of every
machine that can be reached. -/
theorem performAll_induction {P : Machine σ → Prop} (hstep : ∀ m, P m → P (m.step env).1)
    (hreset : ∀ m, P m → P m.reset) (m : Machine σ) (ops : List Operation) (h : P m) :
    P (m.performAll env ops) := by
  induction ops generalizing m with
  | nil => exact h
  | cons op ops ih => exact ih _ (perform_induction hstep hreset m op h)

/-- A step changes neither the program nor the order of the frames, also if it fails. -/
theorem step_coherent (m : Machine σ) (h : m.program = program ∧ m.stack.Coherent program) :
    (m.step env).1.program = program ∧ (m.step env).1.stack.Coherent program := by
  obtain ⟨rfl, hm⟩ := h
  cases hs : m.step env with
  | mk m' r =>
      cases r with
      | error e =>
          rw [eq_of_step_error hs]
          exact ⟨rfl, hm⟩
      | ok t =>
          exact ⟨program_of_step hs, hm.rule (rule_of_step hs).1⟩

theorem coherent_of_step {m m' : Machine σ} {t : Transition} (hs : m.step env = (m', .ok t))
    (hc : m.stack.Coherent m.program) : m'.stack.Coherent m'.program := by
  rw [program_of_step hs]
  exact hc.rule (rule_of_step hs).1

theorem Steps.coherent {m m' : Machine σ} {ts : List Transition} (h : Steps env m ts m')
    (hc : m.stack.Coherent m.program) : m'.stack.Coherent m'.program := by
  induction h with
  | refl => exact hc
  | step hs _ ih => exact ih (coherent_of_step hs hc)

/-- The frames of every machine that can be reached lie inside each other. -/
theorem performAll_coherent (program : Form) (s : σ) (ops : List Operation) :
    ((Machine.new program s).performAll env ops).program = program ∧
      ((Machine.new program s).performAll env ops).stack.Coherent program :=
  performAll_induction (P := fun m => m.program = program ∧ m.stack.Coherent program)
    step_coherent (fun _ h => ⟨h.1, .empty⟩) _ ops ⟨rfl, .empty⟩

end Machine

/-! ## The depth of the stack -/

theorem Node.depth_le_maxDepth {n : Node} : ∀ {ns : List Node}, n ∈ ns → n.depth ≤ maxDepth ns
  | n' :: ns, h => by
      rw [maxDepth]
      rcases List.mem_cons.mp h with rfl | h
      · exact Nat.le_max_left _ _
      · exact Nat.le_trans (Node.depth_le_maxDepth h) (Nat.le_max_right _ _)

theorem Form.depth_operand_lt {a : Form} {k : Nat} {n : Node} (h : a.operand? k = some n) :
    n.depth < (Node.form a).depth := by
  have hmem : n ∈ a := List.mem_of_getElem? h
  have hle := Node.depth_le_maxDepth hmem
  rw [Node.depth]
  omega

/-- The frames and the depth of the innermost form are together at most one more than the
depth of the program. -/
theorem Stack.Coherent.length_add_depth_le {f : Frame} {below : Stack Frame}
    (h : Stack.Coherent (f :: below) program) :
    (f :: below).length + (Node.form f.scope).depth ≤ (Node.form program).depth + 1 := by
  induction below generalizing f with
  | nil =>
      have hf : f.scope = program := h.outermost f rfl
      rw [hf, List.length_singleton]
      omega
  | cons g outer ih =>
      obtain ⟨-, k, -, -, hn⟩ := (List.isChain_cons_cons.mp h.nested).1
      have hdepth := Form.depth_operand_lt hn
      have hrest := ih h.tail
      rw [List.length_cons]
      omega

theorem Form.depth_pos (a : Form) : 1 ≤ (Node.form a).depth := by
  rw [Node.depth]
  omega

theorem Form.two_le_depth {a : Form} (h : a ≠ []) : 2 ≤ (Node.form a).depth := by
  obtain ⟨n, ns, rfl⟩ := List.exists_cons_of_ne_nil h
  have hpos : 1 ≤ n.depth := by
    cases n with
    | missing => simp [Node.depth]
    | terminal name => simp [Node.depth]
    | form a => exact Form.depth_pos a
  rw [Node.depth, Node.maxDepth]
  omega

/-! ## All that is known of the frames -/

/-- What the pending frames of a machine look like at any moment, after any steps, runs
and resets, failed steps included.

Every frame but the innermost is evaluating an operand, which is the form of the next frame,
and the outermost frame is that of the program.  Every child has a slot.  The operands
that were passed have a value unless a choice left them out, and nothing else has one but
the result of a finished frame.  The frames are no more than the program is deep, and
fewer unless the innermost form is empty. -/
theorem Machine.frames_of_performAll (env : Environment σ) (program : Form) (s : σ)
    (ops : List Operation) :
    let stack := ((Machine.new program s).performAll env ops).stack
    (∀ f, stack.getLast? = some f → f.scope = program) ∧
    stack.IsChain (fun inner outer =>
      outer.phase = .evaluating ∧ 1 ≤ outer.operandNumber ∧
        outer.operandNumber ≤ outer.scope.operandCount ∧
        outer.scope.operand? outer.operandNumber = some (.form inner.scope)) ∧
    (∀ f ∈ stack,
      f.slots.length = f.scope.length ∧
      (f.phase = .evaluating →
        1 ≤ f.operandNumber ∧ f.operandNumber ≤ f.scope.operandCount ∧
        f.slot 0 = none ∧ (∀ j, f.operandNumber ≤ j → f.slot j = none) ∧
        ∀ j, 1 ≤ j → j < f.operandNumber → ((f.slot j).isSome ↔ f.Wants j)) ∧
      (f.phase ≠ .evaluating →
        f.operandNumber = 0 ∧
        ∀ j, 1 ≤ j → j ≤ f.scope.operandCount → ((f.slot j).isSome ↔ f.Wants j)) ∧
      (f.phase = .finished →
        (f.slot 0).isSome ∧ ∃ c, f.control = .ok c ∧ f.slot 0 = c.resultOf f.slot) ∧
      (f.phase ≠ .finished → f.slot 0 = none)) ∧
    stack.length ≤ (Node.form program).depth ∧
    (∀ f, stack.head? = some f → f.scope ≠ [] → stack.length < (Node.form program).depth) := by
  intro stack
  have h : stack.Coherent program := (performAll_coherent program s ops).2
  refine ⟨h.outermost, ?_, fun f hf => ?_, ?_, ?_⟩
  · refine List.IsChain.imp_of_mem_imp (fun inner outer _ houter hosts => ?_) h.nested
    obtain ⟨c, k, hat, -, hn⟩ := hosts
    have hrange := hat.range (h.frames outer houter)
    rw [hat.operandNumber_eq]
    exact ⟨Frame.phase_eq_evaluating_iff.mpr ⟨k, hat.cursor⟩, hrange.1, hrange.2, hn⟩
  · have hc := h.frames f hf
    refine ⟨hc.slots_length, hc.evaluating, hc.settled, fun hfin => ?_, fun hfin => ?_⟩
    · obtain ⟨c, hcontrol, hresult, hsome⟩ := hc.finished (Frame.phase_eq_finished_iff.mp hfin)
      exact ⟨hsome, c, hcontrol, hresult⟩
    · exact hc.unfinished fun hcur => hfin (Frame.phase_eq_finished_iff.mpr hcur)
  · cases hs : stack with
    | nil => exact Nat.zero_le _
    | cons f below =>
        have hdepth := (hs ▸ h).length_add_depth_le
        have hpos := f.scope.depth_pos
        omega
  · intro f hf hne
    obtain ⟨below, hs⟩ := List.head?_eq_some_iff.mp hf
    have hdepth := (hs ▸ h).length_add_depth_le
    have htwo := Form.two_le_depth hne
    rw [hs]
    omega

end Stepwise
