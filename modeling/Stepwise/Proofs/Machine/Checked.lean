import Stepwise.Machine.Journal
import Stepwise.Proofs.Machine.Failure
import Stepwise.Proofs.Tree.Whole

/-!
# Looking only where something is

A tree may have holes.  Whoever looks at a child by its number, writes the text of a tree or counts
its nodes can meet something that is not there.  Here all of this is checked, and what is not there
is a `Breakdown`.

Validation looks at the children of any tree, and it only looks at those that are there
(`checkedValidateAll_eq`).  What it accepts has no holes and can be written and measured.  The record
of a step names the form of a pending frame (`Machine.step_namesPending`), so a sound machine makes
its steps and nothing breaks down when they are logged (`Machine.Sound.checkedMove_eq`).
-/

namespace Stepwise

variable {σ : Type} {env : Environment σ}

/-- Why an evaluation breaks down. -/
inductive Breakdown where
  /-- There is no program. -/
  | noProgram
  /-- A tree with a hole was to be written or measured. -/
  | hole
  /-- A step failed, or a slot or a child was not there. -/
  | fault (x : Fault)
deriving DecidableEq

/-- What is asked of a tree, which has it unless there is a hole. -/
def Breakdown.unlessHole {β : Type} : Option β → Except Breakdown β
  | some v => .ok v
  | none => .error .hole

open Breakdown (unlessHole)

/-! ## Validation -/

namespace Form

/-- The child with number `k`, which must be there. -/
def childAt (a : Form) (k : Nat) : Except Breakdown Node :=
  match a[k]? with
  | some n => .ok n
  | none => .error (.fault (.noChild k))

/-- The name in operator position.  A form without children is not asked for it. -/
def operatorAt (a : Form) : Except Breakdown (Option String) :=
  if a.length = 0 then .ok none
  else (a.childAt 0).map fun n =>
    match n with
    | .terminal name => some name
    | _ => none

/-- Check `left` operands from left to right, the first with number `k`. -/
def checkedOperands (a : Form) : Nat → Nat → Except Breakdown (Except Malformed Unit)
  | 0, _ => .ok (.ok ())
  | left + 1, k => do
    match a.checkOperand k (← a.childAt k) with
    | .error e => return .error e
    | .ok () => checkedOperands a left (k + 1)

/-- The control operator of a form. -/
def controlAt (a : Form) : Except Breakdown (Except Malformed Control) := do
  match ← a.operatorAt with
  | none => return .error (a.refuse .operatorMissing)
  | some name =>
    match Op.ofName? name with
    | some (.control c) => return .ok c
    | _ => return .error (a.refuse (.notFunction name))

/-- Check the operator, the arity and the operands of one form. -/
def checkedCheck (a : Form) : Except Breakdown (Except Malformed Unit) := do
  match ← a.controlAt with
  | .error e => return .error e
  | .ok c =>
    if a.operandCount = c.arity then a.checkedOperands a.operandCount 1
    else return .error (a.refuse (.arity c a.operandCount))

end Form

/-- Check the forms of a work list and everything below them. -/
def checkedValidateAll : List Form → Except Breakdown (Except Malformed Unit)
  | [] => .ok (.ok ())
  | a :: work =>
    match a.checkedCheck with
    | .error x => .error x
    | .ok (.error e) => .ok (.error e)
    | .ok (.ok ()) => checkedValidateAll (a.subforms.reverse ++ work)
termination_by work => Form.totalNodes work
decreasing_by
  have hless := Form.totalNodes_subforms_lt a
  rw [Form.totalNodes_append, Form.totalNodes_reverse, Form.totalNodes]
  omega

namespace Form

variable (a : Form)

theorem operatorAt_eq : a.operatorAt = .ok a.operator? := by
  match a with
  | [] => rfl
  | .missing :: _ => rfl
  | .terminal _ :: _ => rfl
  | .form _ :: _ => rfl

theorem checkedOperands_eq {ns : List Node} {k : Nat} (h : a.drop k = ns) :
    a.checkedOperands ns.length k = .ok (a.checkOperands k ns) := by
  induction ns generalizing k with
  | nil => rfl
  | cons n ns ih =>
      have hget : a[k]? = some n := by
        rw [← List.head?_drop, h]
        rfl
      have hrest : a.drop (k + 1) = ns := by
        rw [← List.tail_drop, h]
        rfl
      have hchild : a.childAt k = .ok n := by rw [childAt, hget]
      rw [List.length_cons, checkedOperands, hchild, checkOperands]
      show (match a.checkOperand k n with | .error e => _ | .ok () => _) = _
      cases a.checkOperand k n with
      | error e => rfl
      | ok u => exact ih hrest

theorem controlAt_eq : a.controlAt = .ok a.control := by
  rw [controlAt, operatorAt_eq, control]
  cases a.operator? with
  | none => rfl
  | some name =>
      simp only [bind, Except.bind]
      cases Op.ofName? name with
      | none => rfl
      | some op => cases op <;> rfl

theorem checkedCheck_eq : a.checkedCheck = .ok a.check := by
  have hoperands : a.checkedOperands a.operandCount 1 = .ok (a.checkOperands 1 a.operands) :=
    a.checkedOperands_eq List.drop_one
  rw [checkedCheck, controlAt_eq, check]
  cases a.control with
  | error e => rfl
  | ok c =>
      show (if a.operandCount = c.arity then a.checkedOperands a.operandCount 1 else _) =
        .ok (if a.operandCount = c.arity then a.checkOperands 1 a.operands else _)
      rw [hoperands]
      split <;> rfl

end Form

theorem checkedValidateAll_eq (work : List Form) :
    checkedValidateAll work = .ok (validateAll work) := by
  induction work using validateAll.induct with
  | case1 => rw [checkedValidateAll, validateAll]
  | case2 a work e hcheck => rw [checkedValidateAll, validateAll, a.checkedCheck_eq, hcheck]
  | case3 a work hcheck ih =>
      rw [checkedValidateAll, validateAll, a.checkedCheck_eq, hcheck]
      exact ih

/-! ## Texts and measures -/

namespace Form

/-- Write a form into the log, if the log takes details. -/
def logged (level : Log.Level) (a : Form) : Except Breakdown Unit :=
  if level ≤ Log.Level.debug then (unlessHole (Node.form a).text?).map fun _ => () else .ok ()

/-- The depth and the number of nodes, as a report says them, with the text in its record. -/
def measured (level : Log.Level) (a : Form) : Except Breakdown (Nat × Nat) := do
  let depth ← unlessHole (Node.form a).depth?
  let count ← unlessHole (Node.form a).nodeCount?
  a.logged level
  return (depth, count)

/-- A program that is there and has a text. -/
def keyed : Option Form → Except Breakdown Form
  | none => .error .noProgram
  | some a => (unlessHole (Node.form a).text?).map fun _ => a

end Form

namespace Program

variable {a : Form}

theorem text?_eq (h : Program a) : (Node.form a).text? = some a.text := by
  rw [Node.text?_eq, h.whole]
  rfl

theorem logged_eq (h : Program a) (level : Log.Level) : a.logged level = .ok () := by
  rw [Form.logged, h.text?_eq]
  split <;> rfl

theorem measured_eq (h : Program a) (level : Log.Level) :
    a.measured level = .ok ((Node.form a).depth, (Node.form a).nodeCount) := by
  rw [Form.measured, Node.depth?_eq, Node.nodeCount?_eq, h.whole, h.logged_eq level]
  rfl

theorem keyed_eq (h : Program a) : Form.keyed (some a) = .ok a := by
  rw [Form.keyed, h.text?_eq]
  rfl

end Program

/-! ## Steps and their records -/

/-- Write the record of a step, which names the form of its frame. -/
def Transition.logged (level : Log.Level) (t : Transition) : Except Breakdown Unit :=
  match t.context with
  | some f => f.scope.logged level
  | none => .ok ()

/-- A checked step whose record is written. -/
def Machine.checkedMove (level : Log.Level) (env : Environment σ) (m : Machine σ) :
    Except Breakdown (Machine σ) :=
  match m.checkedStep env with
  | (_, .error x) => .error (.fault x)
  | (m, .ok t) => (t.logged level).map fun _ => m

namespace Machine

variable {m : Machine σ}

/-- The form of the frame that an answer reports is that of a pending frame. -/
def NamesPending (answer : Answer σ) : Prop :=
  ∀ t, answer.2 = .ok t → ∀ f ∈ t.context, ∃ g ∈ answer.1.stack, g.scope = f.scope

theorem namesPending_error {e : Malformed} : NamesPending (m, .error e) := nofun

theorem namesPending_done {program : Form} {s : σ} {stats : Stats} {f g : Frame}
    {below : Stack Frame} {e : Event} {depth : Nat} (hscope : g.scope = f.scope) :
    NamesPending (done ⟨program, s, g :: below, stats⟩ e (some f) depth) := by
  intro t ht f' hf'
  cases ht
  cases hf'
  exact ⟨g, List.mem_cons_self .., hscope⟩

theorem call_namesPending (m : Machine σ) (f : Frame) (below : Stack Frame) (k : Nat)
    (n : Option Node) : NamesPending (m.call env f below k n) := by
  match n with
  | none => exact namesPending_error
  | some .missing => exact namesPending_error
  | some (.form a) => exact namesPending_done rfl
  | some (.terminal name) =>
      simp only [call]
      cases leafNamed name with
      | error e => exact namesPending_error
      | ok l =>
          cases l with
          | move v => exact namesPending_done rfl
          | sense x => exact namesPending_done rfl

theorem step_namesPending (m : Machine σ) : NamesPending (m.step env) := by
  obtain ⟨program, s, stack, stats⟩ := m
  cases stack with
  | nil => exact namesPending_done rfl
  | cons f below =>
      cases hcur : f.cursor with
      | finished =>
          simp only [step, hcur]
          cases below with
          | nil =>
              intro t ht f' hf'
              cases ht
              cases hf'
          | cons g outer => exact namesPending_done rfl
      | resolving =>
          simp only [step, hcur, resolve]
          cases f.control with
          | error e => exact namesPending_error
          | ok c => exact namesPending_done rfl
      | operand k =>
          simp only [step, hcur, visit]
          cases f.control with
          | error e => exact namesPending_error
          | ok c =>
              by_cases htakes : f.takes c k = true
              · simp only [htakes, if_true]
                exact call_namesPending _ f below k _
              · simp only [htakes]
                exact namesPending_done rfl

/-- A sound machine makes its steps, and nothing breaks down when their records are written. -/
theorem Sound.checkedMove_eq (h : m.Sound) (env : Environment σ) (level : Log.Level) :
    ∃ m' t, m.step env = (m', .ok t) ∧ m'.Sound ∧ m.checkedMove level env = .ok m' := by
  obtain ⟨m', t, hstep, hm'⟩ := h.step_ok env
  have hlogged : t.logged level = .ok () := by
    unfold Transition.logged
    cases hcontext : t.context with
    | none => rfl
    | some f =>
        have hnames : NamesPending (m', .ok t) := hstep ▸ step_namesPending m
        obtain ⟨g, hg, hscope⟩ := hnames t rfl f hcontext
        exact (hscope ▸ hm'.valid g hg).logged_eq level
  refine ⟨m', t, hstep, hm', ?_⟩
  rw [checkedMove, checkedStep_eq m h.coherent, hstep]
  show (t.logged level).map _ = _
  rw [hlogged]
  rfl

end Machine

end Stepwise
