import Stepwise.Proofs.Machine.Safety

/-!
# A step that fails does nothing

A step reads and fills slots and looks at children by their numbers.  Nothing in a step says
that the numbers are in range.  `Machine.checkedStep` is the step with every such access checked.
It can stop with a refusal, as the step can, and also because a slot or a child is not there.
What it has changed before it stops stays changed.

On frames that lie inside each other the two do the same (`Machine.checkedStep_eq`), so all the
numbers are in range, whatever the program is.  A checked step that fails then fails as the step
does, which is before it touches anything (`Machine.eq_of_step_error`).

The answer of a step does not depend on the counters (`Machine.step_snd_withStats`).  So a
machine whose step failed fails in the same way again, until it is reset
(`FailsWith.performAll_eq`).
-/

namespace Stepwise

variable {σ : Type} {env : Environment σ}

/-! ## Checked access -/

/-- Why a checked step stops. -/
inductive Fault where
  /-- The machine refuses to go on. -/
  | refused (e : Malformed)
  /-- There is no slot `k`. -/
  | noSlot (k : Nat)
  /-- There is no child `k`. -/
  | noChild (k : Nat)
deriving DecidableEq

namespace Frame

variable (f : Frame)

/-- The value in slot `k`, if there is such a slot. -/
def slotAt (k : Nat) : Except Fault Value :=
  match f.slots[k]? with
  | some v => .ok v
  | none => .error (.noSlot k)

/-- Store a value in slot `k`, if there is such a slot. -/
def storeAt (k : Nat) (v : Value) : Except Fault Frame :=
  if k < f.slots.length then .ok (f.store k v) else .error (.noSlot k)

/-- Child `k` of the scope, if there is one. -/
def childAt (k : Nat) : Except Fault Node :=
  match f.scope[k]? with
  | some n => .ok n
  | none => .error (.noChild k)

/-- Is operand `k` evaluated?  A choice looks at its first operand, whatever `k` is. -/
def takesAt (c : Control) (k : Nat) : Except Fault Bool :=
  match c with
  | .ifElse => do
    let cond ← f.slotAt 1
    return k = 1 || (k = 2 && cond.truthy) || (k = 3 && !cond.truthy)
  | _ => return true

/-- The result of a form from the slots of its operands. -/
def resolvedAt (c : Control) : Except Fault Value :=
  match c with
  | .eq => do
    let a ← f.slotAt 1
    let b ← f.slotAt 2
    return Value.ofBool (a.isSome && b.isSome && a = b)
  | .ifElse => do
    let cond ← f.slotAt 1
    if cond.truthy then f.slotAt 2 else f.slotAt 3
  | .prog2 | .prog3 => f.slotAt (f.slots.length - 1)

end Frame

namespace Machine

/-- The answer of a checked step. -/
abbrev Checked (σ : Type) := Machine σ × Except Fault Transition

/-- An answer as that of a checked step. -/
def checked (answer : Answer σ) : Checked σ := (answer.1, answer.2.mapError .refused)

/-- Leave a finished frame.  Its parent stores the result. -/
def checkedLeave (env : Environment σ) (m : Machine σ) (f : Frame) (below : Stack Frame) :
    Checked σ :=
  match below with
  | [] => checked (m.leave env f [])
  | parent :: outer =>
    -- The finished frame is gone before its result is stored.
    match parent.storeAt parent.operandNumber f.result with
    | .error x => ({ m with stack := below }, .error x)
    | .ok g =>
      let g := g.passed parent.operandNumber
      checked (done { m with stack := g :: outer } (.handBack f.scope f.result) (some g)
        below.length)

/-- Compute the result of a frame from its slots and store it in the first of them. -/
def checkedResolve (m : Machine σ) (f : Frame) (below : Stack Frame) : Checked σ :=
  match f.control with
  | .error e => (m, .error (.refused e))
  | .ok c =>
    match f.resolvedAt c with
    | .error x => (m, .error x)
    | .ok v =>
      match f.storeAt 0 v with
      | .error x => (m, .error x)
      | .ok g =>
        checked (done { m with stack := { g with cursor := .finished } :: below }
          (.resolve f.scope v) (some g) m.depth)

/-- Evaluate operand `k`.  A form gets a frame of its own.  A leaf asks the game, and the answer
is stored. -/
def checkedCall (env : Environment σ) (m : Machine σ) (f : Frame) (below : Stack Frame)
    (k : Nat) : Checked σ :=
  match f.childAt k with
  | .error x => (m, .error x)
  | .ok .missing => (m, .error (.refused (f.scope.refuse .operandUnusable)))
  | .ok (.form a) => checked (m.call env f below k (some (.form a)))
  | .ok (.terminal name) =>
    match leafNamed name with
    | .error e => (m, .error (.refused e))
    | .ok (.move v) =>
      -- The game has advanced before the answer is stored.
      let (ok, state) := env.advance (.move v) m.state
      match f.storeAt k (Value.ofBool ok) with
      | .error x => ({ m with state }, .error x)
      | .ok g =>
        checked (done { m with state, stack := g.passed k :: below, stats := m.stats.countAction }
          (.act v ok) (some g) m.depth)
    | .ok (.sense x) =>
      let (v, state) := env.read x m.state
      match f.storeAt k (some v) with
      | .error x => ({ m with state }, .error x)
      | .ok g =>
        checked (done { m with state, stack := g.passed k :: below } (.observe x v) (some g)
          m.depth)

/-- Come to operand `k`, which is evaluated or passed over. -/
def checkedVisit (env : Environment σ) (m : Machine σ) (f : Frame) (below : Stack Frame)
    (k : Nat) : Checked σ :=
  match f.control with
  | .error e => (m, .error (.refused e))
  | .ok c =>
    match f.takesAt c k with
    | .error x => (m, .error x)
    | .ok true => m.checkedCall env f below k
    | .ok false =>
      match f.childAt k with
      | .error x => (m, .error x)
      | .ok n => checked (done { m with stack := f.passed k :: below } (.skip n) (some f) m.depth)

/-- One step, in which every access to a slot or a child is checked. -/
def checkedStep (env : Environment σ) (m : Machine σ) : Checked σ :=
  let m := { m with stats := m.stats.countStep }
  match m.stack with
  | [] => checked m.beginRound
  | f :: below =>
    match f.cursor with
    | .finished => m.checkedLeave env f below
    | .resolving => m.checkedResolve f below
    | .operand k => m.checkedVisit env f below k

end Machine

/-! ## Every access is in range -/

namespace Frame

variable {f : Frame} {c : Control} {k : Nat} {v : Value}

theorem slotAt_eq (h : k < f.slots.length) : f.slotAt k = .ok (f.slot k) := by
  simp [slotAt, slot, h]

theorem storeAt_eq (h : k < f.slots.length) : f.storeAt k v = .ok (f.store k v) := by
  simp [storeAt, h]

theorem takesAt_eq (h : f.slots.length = c.arity + 1) : f.takesAt c k = .ok (f.takes c k) := by
  cases c with
  | ifElse =>
      have hone : f.slotAt 1 = .ok (f.slot 1) := slotAt_eq (by rw [h]; decide)
      simp [takesAt, takes, hone]
  | eq => rfl
  | prog2 => rfl
  | prog3 => rfl

theorem resolvedAt_eq (h : f.slots.length = c.arity + 1) :
    f.resolvedAt c = .ok (f.resolved c) := by
  have hslot : ∀ {k}, k ≤ c.arity → f.slotAt k = .ok (f.slot k) := by
    intro k hk
    exact slotAt_eq (by omega)
  cases c with
  | eq =>
      have hone := hslot (k := 1) (by decide)
      have htwo := hslot (k := 2) (by decide)
      -- Two equal values are both there if the first is.
      have hboth : ((f.slot 1).isSome && (f.slot 2).isSome && decide (f.slot 1 = f.slot 2)) =
          ((f.slot 1).isSome && decide (f.slot 1 = f.slot 2)) := by
        by_cases heq : f.slot 1 = f.slot 2
        · simp [heq]
        · simp [heq]
      rw [resolvedAt, hone, htwo, resolved, ← hboth]
      rfl
  | ifElse =>
      have hone := hslot (k := 1) (by decide)
      have htwo := hslot (k := 2) (by decide)
      have hthree := hslot (k := 3) (by decide)
      rw [resolvedAt, hone, resolved]
      show (if (f.slot 1).truthy then f.slotAt 2 else f.slotAt 3) = _
      rw [htwo, hthree]
      split <;> rfl
  | prog2 => exact slotAt_eq (by omega)
  | prog3 => exact slotAt_eq (by omega)

theorem At.childAt_eq (hf : f.Coherent) (hat : f.At c k) :
    ∃ n, f.scope.operand? k = some n ∧ f.childAt k = .ok n := by
  have hlt : k < f.scope.length := hf.slots_length ▸ hat.lt_slots_length hf
  have hget : f.scope[k]? = some f.scope[k] := List.getElem?_eq_getElem hlt
  exact ⟨f.scope[k], hget, by simp [childAt, hget]⟩

end Frame

namespace Machine

variable {f : Frame} {below : Stack Frame} {c : Control} {k : Nat} (m : Machine σ)

theorem checkedLeave_eq (h : ∀ g outer, below = g :: outer → g.operandNumber < g.slots.length) :
    m.checkedLeave env f below = checked (m.leave env f below) := by
  cases below with
  | nil => rfl
  | cons g outer =>
      simp only [checkedLeave, Frame.storeAt_eq (h g outer rfl)]
      rfl

theorem checkedResolve_eq (hf : f.Coherent) :
    m.checkedResolve f below = checked (m.resolve f below) := by
  unfold checkedResolve resolve
  cases hc : f.control with
  | error e => rfl
  | ok c =>
      have hlen := hf.slots_length_of_control hc
      simp only [Frame.resolvedAt_eq hlen, Frame.storeAt_eq (f := f) (k := 0) (by omega)]
      rfl

theorem checkedCall_eq (hf : f.Coherent) (hat : f.At c k) :
    m.checkedCall env f below k = checked (m.call env f below k (f.scope.operand? k)) := by
  obtain ⟨n, hn, hchild⟩ := hat.childAt_eq hf
  have hstore : ∀ v, f.storeAt k v = .ok (f.store k v) := fun v =>
    Frame.storeAt_eq (hat.lt_slots_length hf)
  rw [hn]
  cases n with
  | missing => simp only [checkedCall, hchild]; rfl
  | form a => simp only [checkedCall, hchild]
  | terminal name =>
      simp only [checkedCall, hchild, call]
      cases leafNamed name with
      | error e => rfl
      | ok l =>
          cases l with
          | move v => simp only [hstore]
          | sense x => simp only [hstore]

theorem checkedVisit_eq (hf : f.Coherent) (hcur : f.cursor = .operand k) :
    m.checkedVisit env f below k = checked (m.visit env f below k) := by
  unfold checkedVisit visit
  cases hc : f.control with
  | error e => rfl
  | ok c =>
      have hat : f.At c k := ⟨hcur, hc⟩
      simp only [Frame.takesAt_eq (hf.slots_length_of_control hc)]
      cases htakes : f.takes c k with
      | true => exact m.checkedCall_eq hf hat
      | false =>
          obtain ⟨n, hn, hchild⟩ := hat.childAt_eq hf
          simp only [hchild, hn]
          rfl

/-- On frames that lie inside each other a checked step is a step: no slot and no child is
missing. -/
theorem checkedStep_eq (h : m.stack.Coherent m.program) :
    m.checkedStep env = checked (m.step env) := by
  obtain ⟨program, s, stack, stats⟩ := m
  cases stack with
  | nil => rfl
  | cons f below =>
      unfold checkedStep step
      cases hcur : f.cursor with
      | operand k => simp only [hcur, checkedVisit_eq _ h.top hcur]
      | resolving => simp only [hcur, checkedResolve_eq _ h.top]
      | finished =>
          simp only [hcur]
          refine checkedLeave_eq _ fun g outer hbelow => ?_
          -- The frame below waits for the result.
          subst hbelow
          obtain ⟨c, k, hat, -, -⟩ := (List.isChain_cons_cons.mp h.nested).1
          rw [hat.operandNumber_eq]
          exact hat.lt_slots_length h.tail.top

/-! ## Failing again -/

theorem call_snd_withStats (stats : Stats) (n : Option Node) :
    (({ m with stats } : Machine σ).call env f below k n).2 = (m.call env f below k n).2 := by
  match n with
  | none => rfl
  | some .missing => rfl
  | some (.form a) => rfl
  | some (.terminal name) =>
      simp only [call]
      cases leafNamed name with
      | error e => rfl
      | ok l => cases l <;> rfl

/-- The answer of a step does not depend on the counters. -/
theorem step_snd_withStats (stats : Stats) :
    (({ m with stats } : Machine σ).step env).2 = (m.step env).2 := by
  obtain ⟨program, s, stack, stats'⟩ := m
  cases stack with
  | nil => rfl
  | cons f below =>
      cases hcur : f.cursor with
      | finished =>
          simp only [step, hcur]
          cases below <;> rfl
      | resolving =>
          simp only [step, hcur, resolve]
          cases f.control <;> rfl
      | operand k =>
          simp only [step, hcur, visit]
          cases f.control with
          | error e => rfl
          | ok c =>
              by_cases htakes : f.takes c k = true
              · simp only [htakes, if_true]
                exact call_snd_withStats ⟨program, s, f :: below, stats'.countStep⟩
                  stats.countStep _
              · simp only [htakes]
                rfl

/-- The next step of the machine fails with `e`. -/
def FailsWith (env : Environment σ) (m : Machine σ) (e : Malformed) : Prop :=
  (m.step env).2 = .error e

/-- The machine after `n` more steps that only counted themselves. -/
def counted (n : Nat) (m : Machine σ) : Machine σ :=
  { m with stats := { m.stats with steps := m.stats.steps + Int64.ofNat n } }

theorem counted_counted (n k : Nat) : (m.counted n).counted k = m.counted (n + k) := by
  simp [counted, Int64.ofNat_add, Int64.add_assoc]

namespace FailsWith

variable {m : Machine σ} {e : Malformed}

theorem step_eq (h : m.FailsWith env e) : m.step env = (m.counted 1, .error e) := by
  have hs : m.step env = ((m.step env).1, .error e) := by rw [← h]
  rw [hs, eq_of_step_error hs]
  rfl

theorem counted (h : m.FailsWith env e) (n : Nat) : (m.counted n).FailsWith env e :=
  (m.step_snd_withStats _).trans h

/-- Whatever is done with a machine that fails but a reset makes one step, which fails. -/
theorem perform_eq (h : m.FailsWith env e) {op : Operation} (hop : op ≠ .reset) :
    m.perform env op = m.counted 1 := by
  cases op with
  | reset => exact absurd rfl hop
  | step => exact congrArg Prod.fst h.step_eq
  | runTick =>
      show (m.runTick env).1 = m.counted 1
      obtain ⟨fuel, hfuel⟩ : ∃ fuel, m.stepBound = fuel + 1 := by
        refine Nat.exists_eq_add_one.mpr ?_
        exact Nat.add_pos_left (Node.nodeCount_pos _) _
      rw [runTick_fst, hfuel, untilTick, h.step_eq]

theorem performAll_eq (h : m.FailsWith env e) {ops : List Operation} (hops : .reset ∉ ops) :
    m.performAll env ops = m.counted ops.length := by
  induction ops generalizing m with
  | nil => simp [performAll, Machine.counted]
  | cons op ops ih =>
      have hop : op ≠ .reset := fun hop => hops (by simp [hop])
      have hrest : .reset ∉ ops := fun hmem => hops (List.mem_cons_of_mem op hmem)
      rw [performAll_cons, h.perform_eq hop, ih (h.counted 1) hrest, counted_counted,
        List.length_cons, Nat.add_comm]

theorem stepsOnto_eq (h : m.FailsWith env e) (n : Nat) (before : List Transition) :
    (stepsOnto env n before m).1 = before := by
  induction n generalizing m with
  | zero => rfl
  | succ n ih =>
      rw [stepsOnto, h.step_eq]
      exact ih (h.counted 1)

theorem transcript_eq (h : m.FailsWith env e) (n : Nat) : m.transcript env n = [] := by
  rw [transcript, h.stepsOnto_eq]
  rfl

end FailsWith

/-- A step that fails leaves no work half done, whatever the program is and whatever was done with
the machine before, failed steps included.

With every access to a slot or a child checked, the step does the same, so it fails for no other
reason than a refusal.  If it does, the frames, the game and all counters but that of the steps
are as before, and nothing is reported.  Until a reset every later step fails in the same way. -/
theorem failure_of_performAll (env : Environment σ) (program : Form) (s : σ)
    (ops : List Operation) :
    let m := (Machine.new program s).performAll env ops
    m.checkedStep env = ((m.step env).1, (m.step env).2.mapError .refused) ∧
    ∀ e, (m.step env).2 = .error e →
      (m.step env).1 = { m with stats := { m.stats with steps := m.stats.steps + 1 } } ∧
      (∀ n, m.transcript env n = []) ∧
      ∀ later : List Operation, .reset ∉ later →
        m.performAll env later = { m with
          stats := { m.stats with steps := m.stats.steps + Int64.ofNat later.length } } ∧
        ((m.performAll env later).step env).2 = .error e := by
  intro m
  obtain ⟨hprogram, hcoherent⟩ : m.program = program ∧ m.stack.Coherent program :=
    performAll_coherent program s ops
  refine ⟨m.checkedStep_eq (hprogram.symm ▸ hcoherent), fun e he => ?_⟩
  have hfails : m.FailsWith env e := he
  refine ⟨congrArg Prod.fst hfails.step_eq, hfails.transcript_eq, fun later hlater => ?_⟩
  have hlast := hfails.performAll_eq hlater
  refine ⟨hlast, ?_⟩
  rw [hlast]
  exact hfails.counted later.length

/-- The second operand is a form without anything in it. -/
def hollow : Form := Form.prog2 (Leaf.move .left).node (.form [])

/-- The hollow program makes its move and enters the empty form, which no step can resolve.  The
fourth step has failed already. -/
theorem failure_of_hollow :
    let m := (Machine.new hollow (⟨{}, [], 0, 0, rfl⟩ : Scripted)).performAll scriptedGame
      [.step, .step, .step, .step]
    m.stats = ⟨4, 1, 0, 1⟩ ∧ m.stack.length = 2 ∧
    (m.step scriptedGame).2 = .error (Form.refuse [] .operatorMissing) ∧
    (m.step scriptedGame).1.stats = ⟨5, 1, 0, 1⟩ ∧ m.transcript scriptedGame 3 = [] ∧
    ((m.performAll scriptedGame [.runTick, .step]).step scriptedGame).2 =
      .error (Form.refuse [] .operatorMissing) := by
  intro m
  have herror : (m.step scriptedGame).2 = .error (Form.refuse [] .operatorMissing) := by rfl
  obtain ⟨hstep, hsilent, hlater⟩ := (failure_of_performAll scriptedGame hollow
    (⟨{}, [], 0, 0, rfl⟩ : Scripted) [.step, .step, .step, .step]).2 _ herror
  refine ⟨rfl, rfl, herror, ?_, hsilent 3, (hlater [.runTick, .step] (by decide)).2⟩
  exact (congrArg Machine.stats hstep).trans rfl

end Machine

end Stepwise
