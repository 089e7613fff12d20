import Stepwise.Proofs.Machine.Coherence
import Stepwise.Proofs.Machine.Refinement

/-!
# Validation accepts the programs that never fail

A valid program is never refused by a machine, whatever the game answers, and for every
other tree there is a game in which a machine meets the defect (`Form.validate_iff_safe`).

One half is progress.  The forms of all pending frames are programs (`Stack.Valid`), and
then some rule applies (`Stack.Valid.progress`).

The other half has to lead a machine to the defect.  The game for it is `oracle`, which
reads its answers from a script.  A script can make an operand zero or nonzero, as one
likes (`Operand.steer`).  So it can lead a frame past any operands in front of a defect,
and choose the branch in which the defect lies (`Form.trapped`).
-/

namespace Stepwise

variable {σ : Type} {env : Environment σ} {program : Form}

/-! ## Progress -/

/-- The forms of all frames are programs. -/
def Stack.Valid (stack : Stack Frame) : Prop := ∀ f ∈ stack, Program f.scope

namespace Stack.Valid

variable {f g : Frame} {below stack stack' : Stack Frame} {s s' : σ} {e : Event}

theorem empty : Stack.Valid [] := List.forall_mem_nil _

theorem cons_iff : Stack.Valid (f :: below) ↔ Program f.scope ∧ below.Valid :=
  List.forall_mem_cons

theorem replace (h : Stack.Valid (f :: below)) (hscope : g.scope = f.scope) :
    Stack.Valid (g :: below) := by
  obtain ⟨hf, hbelow⟩ := cons_iff.mp h
  exact cons_iff.mpr ⟨hscope ▸ hf, hbelow⟩

/-- The rules keep the forms of the frames programs. -/
theorem rule (hr : Rule env program stack s e stack' s') (hp : Program program)
    (h : stack.Valid) : stack'.Valid := by
  cases hr with
  | start => exact cons_iff.mpr ⟨hp, h⟩
  | enter _ _ hn => exact cons_iff.mpr ⟨(cons_iff.mp h).1.subform hn, h⟩
  | act => exact h.replace rfl
  | observe => exact h.replace rfl
  | skip => exact h.replace rfl
  | resolve => exact h.replace rfl
  | handBack =>
      have hbelow := (cons_iff.mp h).2
      exact hbelow.replace rfl
  | round => exact .empty

/-- As long as the forms of the frames are programs, some rule applies. -/
theorem progress (h : stack.Valid) (hc : stack.Coherent program) (s : σ) :
    ∃ e stack' s', Rule env program stack s e stack' s' := by
  cases stack with
  | nil => exact ⟨_, _, _, .start⟩
  | cons f below =>
      have hf : Program f.scope := (cons_iff.mp h).1
      obtain ⟨c, hscope, harity, -⟩ := program_iff.mp hf
      have hcontrol : f.control = .ok c := Frame.control_eq_ok_iff.mpr ⟨hscope, harity⟩
      cases hcur : f.cursor with
      | resolving => exact ⟨_, _, _, .resolve hcur hcontrol⟩
      | finished =>
          cases below with
          | nil => exact ⟨_, _, _, .round hcur rfl⟩
          | cons g outer => exact ⟨_, _, _, .handBack hcur⟩
      | operand k =>
          have hat : f.At c k := ⟨hcur, hcontrol⟩
          cases htakes : f.takes c k with
          | false => exact ⟨_, _, _, .skip hat htakes⟩
          | true =>
              have hrange := hat.range hc.top
              obtain ⟨n, hn, ho⟩ := hf.operand hrange.1 hrange.2
              cases ho with
              | program => exact ⟨_, _, _, .enter hat htakes hn⟩
              | leaf l =>
                  cases l with
                  | move v => exact ⟨_, _, _, .act hat htakes hn rfl⟩
                  | sense x => exact ⟨_, _, _, .observe hat htakes hn rfl⟩

end Stack.Valid

/-! ## Safe machines -/

/-- The slots of a frame that the next step reads or fills: those that decide whether an
operand is taken, or from which the result is computed, and the one for the value. -/
def Frame.touched (f : Frame) : List Nat :=
  match f.cursor, f.control with
  | .operand k, .ok .ifElse => [1, k]
  | .operand k, .ok _ => [k]
  | .resolving, .ok .eq => [0, 1, 2]
  | .resolving, .ok .ifElse => [0, 1, 2, 3]
  | .resolving, .ok _ => [0, f.slots.length - 1]
  | _, _ => []

/-- The slots that the next step reads or fills, with their frames.  A finished frame hands
its result to the frame below. -/
def Stack.touched : Stack Frame → List (Frame × Nat)
  | [] => []
  | f :: below =>
    if f.cursor = .finished then below.head?.toList.map fun g => (g, g.operandNumber)
    else f.touched.map fun k => (f, k)

/-- The next step succeeds, and every slot that it touches is there and belongs to a
child. -/
structure Machine.Safe (env : Environment σ) (m : Machine σ) : Prop where
  succeeds : ∃ t, (m.step env).2 = .ok t
  inRange : ∀ p ∈ m.stack.touched, p.2 < p.1.slots.length ∧ p.2 < p.1.scope.length

theorem Frame.Coherent.touched_lt {f : Frame} (hf : f.Coherent) :
    ∀ k ∈ f.touched, k < f.slots.length := by
  intro k hk
  unfold Frame.touched at hk
  cases hc : f.control with
  | error e => simp [hc] at hk
  | ok c =>
      have hlen := hf.slots_length_of_control hc
      cases hcur : f.cursor with
      | finished => simp [hcur] at hk
      | resolving =>
          rw [hcur, hc] at hk
          cases c <;> simp [Control.arity] at hk hlen <;> omega
      | operand j =>
          have hj : j < f.slots.length := Frame.At.lt_slots_length hf ⟨hcur, hc⟩
          rw [hcur, hc] at hk
          cases c <;> simp [Control.arity] at hk hlen <;> omega

theorem Stack.Coherent.touched_lt {stack : Stack Frame} (h : stack.Coherent program) :
    ∀ p ∈ stack.touched, p.2 < p.1.slots.length ∧ p.2 < p.1.scope.length := by
  have hrange : ∀ p ∈ stack.touched, p.1 ∈ stack ∧ p.2 < p.1.slots.length := by
    intro p hp
    cases stack with
    | nil => cases hp
    | cons f below =>
        by_cases hcur : f.cursor = .finished
        · -- The frame below waits for the result.
          cases below with
          | nil => simp [Stack.touched, hcur] at hp
          | cons g outer =>
              obtain rfl : p = (g, g.operandNumber) := by simpa [Stack.touched, hcur] using hp
              obtain ⟨c, k, hat, -, -⟩ := (List.isChain_cons_cons.mp h.nested).1
              refine ⟨by simp, ?_⟩
              rw [hat.operandNumber_eq]
              exact hat.lt_slots_length h.tail.top
        · obtain ⟨k, hk, rfl⟩ : ∃ k ∈ f.touched, (f, k) = p := by
            simpa [Stack.touched, hcur] using hp
          exact ⟨List.mem_cons_self .., h.top.touched_lt k hk⟩
  intro p hp
  obtain ⟨hmem, hlt⟩ := hrange p hp
  exact ⟨hlt, (h.frames _ hmem).slots_length ▸ hlt⟩

/-- A machine whose program and pending frames are in order. -/
structure Machine.Sound (m : Machine σ) : Prop where
  program : Program m.program
  coherent : m.stack.Coherent m.program
  valid : m.stack.Valid

namespace Machine

variable {m m' : Machine σ} {t : Transition} {ts : List Transition}

theorem Sound.new (hp : Program program) (s : σ) : (Machine.new program s).Sound :=
  ⟨hp, .empty, .empty⟩

theorem Sound.moved (h : m.Sound) (hs : m.step env = (m', .ok t)) : m'.Sound := by
  have hr := (rule_of_step hs).1
  have hprogram := program_of_step hs
  constructor
  case program => exact hprogram ▸ h.program
  case coherent => exact coherent_of_step hs h.coherent
  case valid => exact h.valid.rule hr h.program

/-- A sound machine makes a step, and is sound afterwards. -/
theorem Sound.step_ok (h : m.Sound) (env : Environment σ) :
    ∃ m' t, m.step env = (m', .ok t) ∧ m'.Sound := by
  obtain ⟨e, stack, s, hr⟩ : ∃ e stack s, Rule env m.program m.stack m.state e stack s :=
    h.valid.progress h.coherent m.state
  obtain ⟨context, hstep⟩ := step_of_rule hr
  exact ⟨_, _, hstep, h.moved hstep⟩

theorem Sound.steps (h : m.Sound) (hs : Steps env m ts m') : m'.Sound := by
  induction hs with
  | refl => exact h
  | step hstep _ ih => exact ih (h.moved hstep)

theorem Sound.safe (h : m.Sound) (env : Environment σ) : m.Safe env where
  succeeds := by
    obtain ⟨m', t, hstep, -⟩ := h.step_ok env
    exact ⟨t, by rw [hstep]⟩
  inRange := h.coherent.touched_lt

/-- Every machine that can be reached with a valid program is sound. -/
theorem performAll_sound (hp : Program program) (env : Environment σ) (s : σ)
    (ops : List Operation) : ((Machine.new program s).performAll env ops).Sound := by
  refine performAll_induction (P := Sound) (fun m h => ?_) (fun m h => ?_) _ ops ?_
  · obtain ⟨m', t, hstep, hm'⟩ := h.step_ok env
    rw [hstep]
    exact hm'
  · exact .new h.program m.state
  · exact .new hp s

end Machine

/-! ## Leading a machine to a defect -/

/-- A game that takes its answers from a script, and answers zero when that is over. -/
def oracle : Environment (List Int64) where
  advance _ script := (script.headD 0 ≠ 0, script.tail)
  distanceX script := (script.headD 0, script.tail)
  distanceY script := (script.headD 0, script.tail)
  finished _ := false
  won _ := false

theorem oracle_read (x : Sensor) (v : Int64) (rest : List Int64) :
    oracle.read x (v :: rest) = (v, rest) := by
  cases x <;> rfl

/-- Nothing but one answer decides the value of a leaf. -/
theorem Leaf.steer (l : Leaf) (b : Bool) :
    ∃ calls, ∀ rest, l.node.eval oracle ((if b then 1 else 0) :: rest) =
      some ⟨if b then 1 else 0, rest, calls⟩ := by
  cases l with
  | move v => exact ⟨[.advance (.move v) b], fun rest => by cases b <;> rw [Leaf.eval_node] <;> rfl⟩
  | sense x =>
      refine ⟨[.read x (if b then 1 else 0)], fun rest => ?_⟩
      rw [Leaf.eval_node, Leaf.eval, oracle_read]

mutual

/-- A script can make an operand zero or nonzero, as one likes, and is used up then. -/
theorem Operand.steer {n : Node} (ho : Operand n) (b : Bool) :
    ∃ script v calls, (v ≠ 0 ↔ b = true) ∧
      ∀ rest, n.eval oracle (script ++ rest) = some ⟨v, rest, calls⟩ := by
  cases ho with
  | leaf l =>
      obtain ⟨calls, hl⟩ := l.steer b
      exact ⟨[if b then 1 else 0], if b then 1 else 0, calls, by cases b <;> decide, hl⟩
  | program hp => exact hp.steer b

theorem Program.steer {a : Form} (hp : Program a) (b : Bool) :
    ∃ script v calls, (v ≠ 0 ↔ b = true) ∧
      ∀ rest, (Node.form a).eval oracle (script ++ rest) = some ⟨v, rest, calls⟩ := by
  cases hp with
  | eq hx hy =>
      -- Zero is equal to zero, and not to anything else.
      obtain ⟨script, v, calls, hv, hx⟩ := hx.steer false
      obtain ⟨script', w, calls', hw, hy⟩ := hy.steer !b
      refine ⟨script ++ script', if v = w then 1 else 0, calls ++ calls', ?_, fun rest => ?_⟩
      · obtain rfl : v = 0 := by simpa using hv
        cases b with
        | true =>
            obtain rfl : w = 0 := by simpa using hw
            decide
        | false =>
            have hne : (0 : Int64) ≠ w := fun h => hw.mpr rfl h.symm
            simp [hne]
      · simp [Form.eval_eq, hx, hy, Evaluated.after, Evaluated.withValue]
  | prog2 hx hy =>
      obtain ⟨script, v, calls, -, hx⟩ := hx.steer true
      obtain ⟨script', w, calls', hw, hy⟩ := hy.steer b
      refine ⟨script ++ script', w, calls ++ calls', hw, fun rest => ?_⟩
      simp [Form.eval_prog2, hx, hy, Evaluated.after]
  | ifElse hx hy _ =>
      obtain ⟨script, v, calls, hv, hx⟩ := hx.steer true
      obtain ⟨script', w, calls', hw, hy⟩ := hy.steer b
      have hv : v ≠ 0 := hv.mpr rfl
      refine ⟨script ++ script', w, calls ++ calls', hw, fun rest => ?_⟩
      simp [Form.eval_ifElse, hx, hy, hv, Evaluated.after]
  | prog3 hx hy hz =>
      obtain ⟨script, v, calls, -, hx⟩ := hx.steer true
      obtain ⟨script', w, calls', -, hy⟩ := hy.steer true
      obtain ⟨script'', u, calls'', hu, hz⟩ := hz.steer b
      refine ⟨script ++ (script' ++ script''), u, calls ++ (calls' ++ calls''), hu, fun rest => ?_⟩
      simp [Form.eval_prog3, hx, hy, hz, Evaluated.after]

end

/-- Some script leads these frames to a place where no rule applies. -/
def Trapped (program : Form) (stack : Stack Frame) : Prop :=
  ∃ script es stack' rest, Runs oracle program stack script es stack' rest ∧
    ∀ e stack'' s, ¬ Rule oracle program stack' rest e stack'' s

namespace Trapped

variable {stack stack' : Stack Frame}

theorem here (h : ∀ s e stack' s', ¬ Rule oracle program stack s e stack' s') :
    Trapped program stack :=
  ⟨[], [], stack, [], .refl, h []⟩

/-- Frames are trapped if a script leads them to frames that are. -/
theorem after (script : List Int64)
    (h : ∀ rest, ∃ es, Runs oracle program stack (script ++ rest) es stack' rest) :
    Trapped program stack' → Trapped program stack := by
  rintro ⟨script', es', stack'', rest, hrun, hstuck⟩
  obtain ⟨es, hfirst⟩ := h script'
  exact ⟨script ++ script', es ++ es', stack'', rest, hfirst.trans hrun, hstuck⟩

end Trapped

section Frames

variable {f : Frame} {c : Control} {k : Nat} {n : Node} {below : Stack Frame}

/-- No rule applies to a frame that has no operator, before it is finished. -/
theorem trapped_of_control (hcur : f.cursor ≠ .finished) (hc : ∀ c, f.control ≠ .ok c) :
    Trapped program (f :: below) := by
  refine .here fun s e stack s' hr => ?_
  cases hr with
  | enter hat => exact hc _ hat.control
  | act hat => exact hc _ hat.control
  | observe hat => exact hc _ hat.control
  | skip hat => exact hc _ hat.control
  | resolve _ hcontrol => exact hc _ hcontrol
  | handBack hfin => exact hcur hfin
  | round hfin => exact hcur hfin

variable (hat : f.At c k) (htakes : f.takes c k = true) (hn : f.scope.operand? k = some n)

include hat htakes hn

/-- What a rule takes at the cursor is a leaf or a form. -/
theorem Rule.operand_at {s s' : σ} {e : Event} {stack : Stack Frame}
    (hr : Rule env program (f :: below) s e stack s') :
    (∃ l : Leaf, n = l.node) ∨ ∃ a, n = .form a := by
  have hsame : ∀ {c' j}, f.At c' j → j = k := fun hat' => by
    simpa using hat'.cursor.symm.trans hat.cursor
  cases hr with
  | enter hat' _ hn' =>
      obtain rfl := hsame hat'
      exact .inr ⟨_, Option.some.inj (hn.symm.trans hn')⟩
  | act hat' _ hn' =>
      obtain rfl := hsame hat'
      exact .inl ⟨_, Option.some.inj (hn.symm.trans hn')⟩
  | observe hat' _ hn' =>
      obtain rfl := hsame hat'
      exact .inl ⟨_, Option.some.inj (hn.symm.trans hn')⟩
  | skip hat' htakes' =>
      obtain rfl := hsame hat'
      obtain rfl : c = _ := by simpa using hat.control.symm.trans hat'.control
      rw [htakes] at htakes'
      cases htakes'
  | resolve hcur =>
      rw [hat.cursor] at hcur
      cases hcur
  | handBack hcur =>
      rw [hat.cursor] at hcur
      cases hcur
  | round hcur =>
      rw [hat.cursor] at hcur
      cases hcur

/-- A frame is trapped by a defect at its cursor, if a form with a defect traps its own
frame. -/
theorem trapped_of_operand (hbad : ¬ Operand n)
    (hform : ∀ a, n = .form a → Trapped program (.enter a :: f :: below)) :
    Trapped program (f :: below) := by
  by_cases ha : ∃ a, n = .form a
  · obtain ⟨a, rfl⟩ := ha
    refine .after [] (fun rest => ?_) (hform a rfl)
    exact ⟨_, .one (.enter hat htakes hn)⟩
  · refine .here fun s e stack s' hr => ?_
    rcases hr.operand_at hat htakes hn with ⟨l, rfl⟩ | hform
    · exact hbad (.leaf l)
    · exact ha hform

/-- A frame is trapped if it is trapped behind an operand, which may be made zero or
nonzero for that. -/
theorem trapped_of_fill (ho : Operand n) (b : Bool)
    (h : ∀ v : Int64, (v ≠ 0 ↔ b = true) → Trapped program (f.fill k (some v) :: below)) :
    Trapped program (f :: below) := by
  obtain ⟨script, v, calls, hv, heval⟩ := ho.steer b
  refine .after script (fun rest => ?_) (h v hv)
  obtain ⟨e, he, hrun⟩ : ∃ e, n.eval oracle (script ++ rest) = some e ∧
      Evaluates oracle program (f :: below) (script ++ rest) e.calls
        (f.fill k (some e.value) :: below) e.state :=
    ho.evaluates hat htakes hn below _
  obtain rfl := Option.some.inj ((heval rest).symm.trans he)
  exact hrun.runs

end Frames

theorem Frame.enter_cursor_ne_finished (a : Form) : (Frame.enter a).cursor ≠ .finished := by
  unfold Frame.enter
  by_cases h : a.operandCount = 0
  · simp [h]
  · simp [h]

/-- The frame of a form that is not a program is trapped, with any frames below. -/
theorem Form.trapped (a : Form) (hbad : ¬ Program a) (below : Stack Frame) :
    Trapped program (.enter a :: below) := by
  have hsub : ∀ (b : Form) (k : Nat), a.operand? k = some (.form b) → ¬ Program b →
      ∀ below, Trapped program (.enter b :: below) := fun b k hb hbad below => by
    have hdecrease := List.sizeOf_lt_of_mem (List.mem_of_getElem? hb)
    exact Form.trapped b hbad below
  by_cases hc : ∃ c, (Frame.enter a).control = .ok c
  case neg => exact trapped_of_control (Frame.enter_cursor_ne_finished a) fun c h => hc ⟨c, h⟩
  obtain ⟨c, hc⟩ := hc
  obtain ⟨hcontrol, hlen⟩ := Frame.control_eq_ok_iff.mp hc
  obtain ⟨ns, rfl⟩ := Form.control_eq_ok_iff.mp hcontrol
  -- A defect of an operand traps the frame as soon as the cursor gets there.
  have hdefect : ∀ (k : Nat) (slots : List Value) (n : Node), ¬ Operand n →
      Frame.takes ⟨Form.ofControl c ns, .operand k, slots⟩ c k = true →
      (Form.ofControl c ns).operand? k = some n →
      Trapped program (⟨Form.ofControl c ns, .operand k, slots⟩ :: below) := by
    intro k slots n hn htakes hget
    refine trapped_of_operand (Frame.at_ofControl ns slots hlen k) htakes hget hn ?_
    rintro b rfl
    exact hsub b k hget (fun hp => hn (.program hp)) _
  cases c with
  | eq =>
      obtain ⟨x, y, rfl⟩ := List.length_eq_two.mp hlen
      by_cases hx : Operand x
      case neg => exact hdefect 1 _ x hx rfl rfl
      have hy : ¬ Operand y := fun hy => hbad (.eq hx hy)
      refine trapped_of_fill (Frame.at_ofControl _ _ rfl 1) rfl rfl hx true fun v _ => ?_
      exact hdefect 2 _ y hy rfl rfl
  | prog2 =>
      obtain ⟨x, y, rfl⟩ := List.length_eq_two.mp hlen
      by_cases hx : Operand x
      case neg => exact hdefect 1 _ x hx rfl rfl
      have hy : ¬ Operand y := fun hy => hbad (.prog2 hx hy)
      refine trapped_of_fill (Frame.at_ofControl _ _ rfl 1) rfl rfl hx true fun v _ => ?_
      exact hdefect 2 _ y hy rfl rfl
  | prog3 =>
      obtain ⟨x, y, z, rfl⟩ := List.length_eq_three.mp hlen
      by_cases hx : Operand x
      case neg => exact hdefect 1 _ x hx rfl rfl
      refine trapped_of_fill (Frame.at_ofControl _ _ rfl 1) rfl rfl hx true fun v _ => ?_
      by_cases hy : Operand y
      case neg => exact hdefect 2 _ y hy rfl rfl
      have hz : ¬ Operand z := fun hz => hbad (.prog3 hx hy hz)
      refine trapped_of_fill (Frame.at_ofControl _ _ rfl 2) rfl rfl hy true fun w _ => ?_
      exact hdefect 3 _ z hz rfl rfl
  | ifElse =>
      obtain ⟨x, y, z, rfl⟩ := List.length_eq_three.mp hlen
      by_cases hx : Operand x
      case neg => exact hdefect 1 _ x hx rfl rfl
      by_cases hy : Operand y
      case neg =>
        -- The condition is made nonzero, which leads to the second operand.
        refine trapped_of_fill (Frame.at_ofControl _ _ rfl 1) rfl rfl hx true fun v hv => ?_
        have hv : v ≠ 0 := hv.mpr rfl
        exact hdefect 2 [none, some v, none, none] y hy
          (by simp [Frame.takes, Frame.slot, Value.truthy, hv]) rfl
      -- The condition is made zero, which leads past the second operand to the third.
      have hz : ¬ Operand z := fun hz => hbad (.ifElse hx hy hz)
      refine trapped_of_fill (Frame.at_ofControl _ _ rfl 1) rfl rfl hx false fun v hv => ?_
      obtain rfl : v = 0 := by simpa using hv
      refine .after [] (fun rest => ?_) (hdefect 3 [none, some 0, none, none] z hz rfl rfl)
      exact ⟨_, .one (.skip (Frame.at_ofControl _ _ rfl 2) rfl)⟩
termination_by sizeOf a
decreasing_by
  simp at hdecrease
  omega

namespace Machine

theorem Steps.performAll_eq {m m' : Machine σ} {ts : List Transition} (h : Steps env m ts m') :
    m.performAll env (List.replicate ts.length .step) = m' := by
  induction h with
  | refl => rfl
  | @step m₁ m₂ _ t ts hs _ ih =>
      have hfirst : m₁.perform env .step = m₂ := by
        rw [perform, hs]
      rw [List.length_cons, List.replicate_succ, performAll_cons, hfirst, ih]

theorem fails_of_not_program (hbad : ¬ Program program) :
    ∃ (script : List Int64) (ts : List Transition) (m : Machine (List Int64)) (e : Malformed),
      Steps oracle (Machine.new program script) ts m ∧ (m.step oracle).2 = .error e := by
  obtain ⟨script, es, stack, rest, hrun, hstuck⟩ : Trapped program [] := by
    refine .after [] (fun rest => ?_) (Form.trapped program hbad [])
    exact ⟨_, .one .start⟩
  obtain ⟨ts, hts, -⟩ := steps_of_runs (m := Machine.new program script) hrun
  obtain ⟨e, he⟩ := step_fails_of_stuck
    (m := (Machine.new program script).movedAll es stack rest) hstuck
  exact ⟨script, ts, _, e, hts, by rw [he]⟩

end Machine

/-- Validation accepts a form exactly if no machine that evaluates it can fail.

The game may answer as it likes, and any number of steps may be made.  A step that does not
fail finds every slot that it looks for.  In particular, for a form that is refused there is
a game in which steps succeed up to one that is refused as well. -/
theorem Form.validate_iff_safe (a : Form) :
    (a.validate = .ok () ↔
      ∀ (σ : Type) (env : Environment σ) (s : σ) (n : Nat),
        ((Machine.new a s).performAll env (List.replicate n .step)).Safe env) ∧
    ∀ refusal, a.validate = .error refusal →
      ∃ (σ : Type) (env : Environment σ) (s : σ) (ts : List Transition) (m : Machine σ)
        (e : Malformed), Machine.Steps env (Machine.new a s) ts m ∧ (m.step env).2 = .error e := by
  have hfails : ¬ Program a →
      ∃ (σ : Type) (env : Environment σ) (s : σ) (ts : List Transition) (m : Machine σ)
        (e : Malformed), Machine.Steps env (Machine.new a s) ts m ∧ (m.step env).2 = .error e :=
    fun hbad => ⟨_, oracle, Machine.fails_of_not_program hbad⟩
  rw [Form.validate_eq_ok_iff]
  refine ⟨⟨fun hp σ env s n => ?_, fun hsafe => ?_⟩, fun refusal hrefused => ?_⟩
  · exact (Machine.performAll_sound hp env s _).safe env
  · by_contra hbad
    obtain ⟨σ, env, s, ts, m, e, hts, he⟩ := hfails hbad
    obtain ⟨t, ht⟩ := (hsafe σ env s ts.length).succeeds
    rw [hts.performAll_eq, he] at ht
    cases ht
  · refine hfails fun hp => ?_
    rw [Form.validate_eq_ok_iff.mpr hp] at hrefused
    cases hrefused

/-- A choice whose third operand is missing fails once its condition is zero. -/
theorem Form.fails_of_missing_branch :
    ∃ (σ : Type) (env : Environment σ) (s : σ) (ts : List Transition) (m : Machine σ)
      (e : Malformed),
      Machine.Steps env
        (Machine.new (Form.ifElse (Leaf.sense .distX).node (Leaf.move .left).node .missing) s) ts m ∧
      (m.step env).2 = .error e :=
  (Form.validate_iff_safe _).2
    (Form.refuse (Form.ifElse (Leaf.sense .distX).node (Leaf.move .left).node .missing)
      (.operandMissing 3))
    (by rw [Form.validate, validateAll]; rfl)

end Stepwise
