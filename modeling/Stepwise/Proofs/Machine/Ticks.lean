import Stepwise.Proofs.Machine.Safety

/-!
# A machine soon comes to a tick

Every step that charges no tick takes away from the work that is left in the round.  What
is left is counted from the pending frames (`Stack.work`).  An operand takes one step if it
is a leaf, and a form takes three besides what its operands take: one for its frame to come,
one to be resolved and one for its frame to go.  That is a step for every node and one more
for every form (`Node.work`).

At no point of a round is more work left than at its beginning
(`Stack.Coherent.work_le`).  So a machine comes to a tick within the work of its program,
from wherever it stands (`Machine.Sound.exists_ticksTo`), and the bound that running to a
tick is given is enough (`Machine.TicksTo.untilTick`).
-/

namespace Stepwise

variable {σ : Type} {env : Environment σ} {program : Form}

/-! ## The work that is left -/

/-- The steps that an operand takes, or a whole round of a program. -/
def Node.work (n : Node) : Nat := n.nodeCount + n.formCount

def workAll (ns : List Node) : Nat := Node.nodeCountAll ns + Node.formCountAll ns

theorem workAll_cons (n : Node) (ns : List Node) : workAll (n :: ns) = n.work + workAll ns := by
  simp only [workAll, Node.work, Node.nodeCountAll, Node.formCountAll]
  omega

theorem Node.work_form (a : Form) : (Node.form a).work = workAll a + 2 := by
  simp only [Node.work, workAll, Node.nodeCount, Node.formCount]
  omega

theorem Node.work_pos (n : Node) : 0 < n.work := Nat.add_pos_left n.nodeCount_pos _

theorem workAll_drop_le (ns : List Node) (k : Nat) : workAll (ns.drop k) ≤ workAll ns := by
  induction k generalizing ns with
  | zero => exact Nat.le_refl _
  | succ k ih =>
      cases ns with
      | nil => exact Nat.le_refl _
      | cons n ns =>
          rw [List.drop_succ_cons, workAll_cons]
          exact Nat.le_trans (ih ns) (Nat.le_add_left _ _)

/-- The work from an operand on is that of the operand and that of those after it. -/
theorem workAll_drop {a : Form} {k : Nat} {n : Node} (h : a.operand? k = some n) :
    workAll (a.drop k) = n.work + workAll (a.drop (k + 1)) := by
  obtain ⟨hk, rfl⟩ := List.getElem?_eq_some_iff.mp h
  rw [List.drop_eq_getElem_cons hk, workAll_cons]

namespace Frame

/-- The steps that a frame takes until it is gone. -/
def work (f : Frame) : Nat :=
  match f.cursor with
  | .operand k => workAll (f.scope.drop k) + 2
  | .resolving => 2
  | .finished => 1

/-- The steps that a frame takes after the operand at its cursor. -/
def workAfter (f : Frame) : Nat := workAll (f.scope.drop (f.operandNumber + 1)) + 2

variable {f : Frame} {c : Control} {k : Nat} {v : Value}

theorem work_enter (a : Form) : (enter a).work = workAll (a.drop 1) + 2 := by
  unfold work enter
  by_cases h : a.operandCount = 0
  · have hnil : a.drop 1 = [] := by
      rw [List.drop_eq_nil_iff]
      rw [Form.operandCount_eq] at h
      omega
    simp only [h, if_true, hnil]
    rfl
  · simp only [h, if_false]

theorem work_passed (hcur : f.cursor = .operand k) : (f.passed k).work = f.workAfter := by
  unfold work workAfter passed
  rw [operandNumber_eq hcur]
  by_cases h : f.scope.operandCount ≤ k
  · have hnil : f.scope.drop (k + 1) = [] := by
      rw [List.drop_eq_nil_iff]
      rw [Form.operandCount_eq] at h
      omega
    simp only [h, if_true, hnil]
    rfl
  · simp only [h, if_false]

theorem work_fill (hcur : f.cursor = .operand k) : (f.fill k v).work = f.workAfter :=
  work_passed (f := f.store k v) hcur

/-- The work from the cursor on is that of the operand there and that after it. -/
theorem work_operand {n : Node} (hcur : f.cursor = .operand k)
    (hn : f.scope.operand? k = some n) : f.work = n.work + f.workAfter := by
  unfold work workAfter
  rw [operandNumber_eq hcur, hcur]
  simp only
  rw [workAll_drop hn, Nat.add_assoc]

theorem Coherent.workAfter_lt (hf : f.Coherent) (hat : f.At c k) : f.workAfter < f.work := by
  have hk : k < f.scope.length := by
    rw [← hf.slots_length]
    exact hat.lt_slots_length hf
  have hn : f.scope.operand? k = some f.scope[k] := List.getElem?_eq_getElem hk
  rw [work_operand hat.cursor hn]
  exact Nat.lt_add_of_pos_left (Node.work_pos _)

theorem work_le (f : Frame) : f.work ≤ (Node.form f.scope).work := by
  rw [Node.work_form]
  unfold work
  cases f.cursor with
  | operand k => exact Nat.add_le_add_right (workAll_drop_le f.scope k) 2
  | resolving => simp
  | finished => simp

theorem work_pos (f : Frame) : 0 < f.work := by
  unfold work
  cases f.cursor <;> simp

end Frame

/-- A form that is a program takes one step more than its frame: the frame has to come. -/
theorem Program.work_enter {a : Form} (h : Program a) :
    (Frame.enter a).work < (Node.form a).work := by
  obtain ⟨c, hc, -⟩ := program_iff.mp h
  obtain ⟨ns, rfl⟩ := Form.control_eq_ok_iff.mp hc
  have hpos := Node.work_pos (.terminal c.name)
  rw [Frame.work_enter, Node.work_form]
  show workAll ns + 2 < workAll (.terminal c.name :: ns) + 2
  rw [workAll_cons]
  omega

/-- The steps that frames take when all above them are gone.  Each of them waits at an operand,
whose work is that of the frames above it. -/
def Stack.workAfter : Stack Frame → Nat
  | [] => 0
  | f :: below => f.workAfter + Stack.workAfter below

/-- The steps until the round of `program` is over. -/
def Stack.work (program : Form) : Stack Frame → Nat
  | [] => (Node.form program).work
  | f :: below => f.work + Stack.workAfter below

/-- A step inside a round takes away from the work that is left. -/
theorem Rule.work_lt {stack stack' : Stack Frame} {s s' : σ} {e : Event}
    (hr : Rule env program stack s e stack' s') (hp : Program program)
    (hc : stack.Coherent program) (hv : stack.Valid) (he : e.endsRound = false) :
    stack'.work program < stack.work program := by
  cases hr with
  | start => exact hp.work_enter
  | @enter f below _ c k a hat _ hn =>
      have ha := ((Stack.Valid.cons_iff.mp hv).1.subform hn).work_enter
      have hf := Frame.work_operand hat.cursor hn
      simp only [Stack.work, Stack.workAfter, hf]
      omega
  | act hat =>
      have hlt := hc.top.workAfter_lt hat
      simp only [Stack.work, Frame.work_fill hat.cursor]
      omega
  | observe hat =>
      have hlt := hc.top.workAfter_lt hat
      simp only [Stack.work, Frame.work_fill hat.cursor]
      omega
  | skip hat =>
      have hlt := hc.top.workAfter_lt hat
      simp only [Stack.work, Frame.work_passed hat.cursor]
      omega
  | resolve hcur =>
      simp only [Stack.work, Frame.finishWith, Frame.work, hcur]
      omega
  | @handBack f =>
      -- The frame below has been waiting, so its work after the operand was counted already.
      obtain ⟨c, k, hat, -⟩ := (List.isChain_cons_cons.mp hc.nested).1
      have hpos := f.work_pos
      simp only [Stack.work, Stack.workAfter, hat.operandNumber_eq, Frame.work_fill hat.cursor]
      omega
  | round => cases he

/-- At no point of a round is more work left than at its beginning. -/
theorem Stack.Coherent.work_le {stack : Stack Frame} (h : stack.Coherent program) :
    stack.work program ≤ (Node.form program).work := by
  cases stack with
  | nil => exact Nat.le_refl _
  | cons f below =>
      -- The innermost form and what is left of the others around it is all in the program.
      have hall : (Node.form f.scope).work + Stack.workAfter below ≤ (Node.form program).work := by
        induction below generalizing f with
        | nil =>
            have hf : f.scope = program := h.outermost f rfl
            rw [hf]
            exact Nat.le_refl _
        | cons g outer ih =>
            obtain ⟨c, k, hat, -, hn⟩ := (List.isChain_cons_cons.mp h.nested).1
            have hg := Frame.work_operand hat.cursor hn
            have hle := g.work_le
            have hrest := ih g h.tail
            rw [Stack.workAfter]
            omega
      have hle := f.work_le
      rw [Stack.work]
      omega

theorem Stack.work_pos (program : Form) (stack : Stack Frame) : 0 < stack.work program := by
  cases stack with
  | nil => exact Node.work_pos _
  | cons f below => exact Nat.add_pos_left f.work_pos _

/-! ## Running to a tick -/

/-- The steps `quiet` charge nothing, and the step `last` after them charges a tick. -/
structure Machine.TicksTo (env : Environment σ) (m : Machine σ) (quiet : List Transition)
    (last : Transition) (m' : Machine σ) : Prop where
  steps : Steps env m (quiet ++ [last]) m'
  quiet : ∀ t ∈ quiet, t.event.charges = false
  charges : last.event.charges = true

theorem Event.endsRound_of_charges {e : Event} (h : e.charges = false) : e.endsRound = false := by
  cases e with
  | round => cases h
  | _ => rfl

namespace Machine

variable {m m' : Machine σ} {quiet : List Transition} {last : Transition}

/-- A sound machine comes to a tick within the work that is left. -/
theorem Sound.exists_ticksTo (h : m.Sound) (env : Environment σ) :
    ∃ quiet last m', m.TicksTo env quiet last m' ∧ quiet.length < m.stack.work m.program := by
  induction hw : m.stack.work m.program using Nat.strong_induction_on generalizing m with
  | _ w ih =>
      obtain ⟨m₁, t, hstep, hm₁⟩ := h.step_ok env
      cases ht : t.event.charges with
      | true =>
          refine ⟨[], t, m₁, ⟨.step hstep .refl, List.forall_mem_nil _, ht⟩, ?_⟩
          rw [← hw]
          exact Stack.work_pos _ _
      | false =>
          have hr := (rule_of_step hstep).1
          have hlt : m₁.stack.work m₁.program < w := by
            rw [program_of_step hstep, ← hw]
            exact hr.work_lt h.program h.coherent h.valid (Event.endsRound_of_charges ht)
          obtain ⟨quiet, last, m', hticks, hlength⟩ := ih _ hlt hm₁ rfl
          refine ⟨t :: quiet, last, m', ⟨.step hstep hticks.steps, ?_, hticks.charges⟩, ?_⟩
          · exact List.forall_mem_cons.mpr ⟨ht, hticks.quiet⟩
          · rw [List.length_cons]
            omega

/-- The loop stops at the tick, if it may make as many steps or more. -/
theorem TicksTo.untilTick (h : m.TicksTo env quiet last m') {fuel : Nat}
    (hfuel : quiet.length < fuel) : untilTick env fuel m = (m', .ok ()) := by
  obtain ⟨hsteps, hquiet, hlast⟩ := h
  induction quiet generalizing m fuel with
  | nil =>
      obtain ⟨fuel, rfl⟩ := Nat.exists_eq_add_of_lt hfuel
      cases hsteps with
      | step hstep hrest =>
          cases hrest
          simp [Machine.untilTick, hstep, hlast]
  | cons t quiet ih =>
      obtain ⟨ht, hquiet⟩ := List.forall_mem_cons.mp hquiet
      cases fuel with
      | zero => cases hfuel
      | succ fuel =>
          cases hsteps with
          | step hstep hrest =>
              simp only [Machine.untilTick, hstep, ht, Bool.false_eq_true, if_false]
              exact ih (Nat.lt_of_succ_lt_succ hfuel) hrest hquiet

/-- Running to a tick makes no other step, and answers whether the game is over. -/
theorem Sound.runTick_eq (h : m.Sound) (hticks : m.TicksTo env quiet last m')
    (hlength : quiet.length < m.stack.work m.program) :
    m.runTick env = (m', .ok (env.finished m'.state)) := by
  have hbound : quiet.length < m.stepBound := Nat.lt_of_lt_of_le hlength h.coherent.work_le
  rw [runTick, hticks.untilTick hbound]

/-- The steps to a tick tell the game one action, and the last of them does. -/
theorem TicksTo.told (h : m.TicksTo env quiet last m') :
    told quiet = [] ∧ ∃ a, last.event.told = [a] := by
  constructor
  · refine List.flatMap_eq_nil_iff.mpr fun t ht => ?_
    have hlen := t.event.length_told
    rw [h.quiet t ht] at hlen
    exact List.length_eq_zero_iff.mp hlen
  · have hlen := last.event.length_told
    rw [h.charges] at hlen
    exact List.length_eq_one_iff.mp hlen

/-- The game is told nothing before the last step, which asks nothing else of it. -/
theorem TicksTo.overhearing (h : m.TicksTo env quiet last m') :
    ∃ (mid : Machine σ) (calls : List Call) (a : Action) (ok : Bool),
      Steps env.overheard (m.overhearing []) quiet (mid.overhearing calls) ∧
      calls.filterMap Call.action? = [] ∧
      (mid.overhearing calls).step env.overheard =
        (m'.overhearing (calls ++ [.advance a ok]), .ok last) := by
  obtain ⟨hquiet, a, hlast⟩ := h.told
  obtain ⟨mid, hfirst, hrest⟩ := h.steps.split
  obtain ⟨calls, hcalls, htold⟩ := hfirst.overhearing []
  cases hrest with
  | step hstep hnone =>
      cases hnone
      obtain ⟨asked, hasked, htold', hlen⟩ := step_overhearing hstep calls
      rw [hlast] at htold'
      obtain ⟨ok, rfl⟩ : ∃ ok, asked = [.advance a ok] := by
        match asked with
        | [] => cases htold'
        | [.read _ _] => cases htold'
        | [.advance _ ok] =>
            cases htold'
            exact ⟨ok, rfl⟩
        | _ :: _ :: _ => simp at hlen
      exact ⟨mid, calls, a, ok, hcalls, htold.trans hquiet, hasked⟩

end Machine

end Stepwise
