import Stepwise.Proofs.Machine.Rules

/-!
# The slots of a frame

A frame fills its slots from left to right.  At every moment the operands that its
cursor has passed have a value, apart from the operand that a choice left out, and
nothing else has.  A frame of which this is true is *coherent* (`Frame.Coherent`).

A frame is coherent when it is entered.  It stays coherent when the operand at the
cursor gets a value, when that operand is left out, and when the form is resolved.  These
are the only things that happen to a frame.
-/

namespace Stepwise

/-! ## Reading and writing slots -/

theorem Form.operandCount_eq (a : Form) : a.operandCount = a.length - 1 := by
  simp [Form.operandCount, Form.operands]

namespace Frame

variable {f : Frame} {c : Control} {j k : Nat} {v : Value}

theorem slot_store_self (h : k < f.slots.length) : (f.store k v).slot k = v := by
  simp [slot, store, h]

theorem slot_store_ne (h : j ≠ k) : (f.store k v).slot j = f.slot j := by
  simp [slot, store, Ne.symm h]

/-- The operator of a frame is that of its form, and fits. -/
theorem control_eq_ok_iff :
    f.control = .ok c ↔ f.scope.control = .ok c ∧ f.scope.operandCount = c.arity := by
  unfold Frame.control
  cases hc : f.scope.control with
  | error e => simp
  | ok c' =>
      by_cases harity : f.scope.operandCount = c'.arity
      · simp only [harity, if_true, Except.ok.injEq]
        constructor
        · rintro rfl
          exact ⟨rfl, rfl⟩
        · exact And.left
      · simp only [harity, if_false, reduceCtorEq, false_iff, not_and, Except.ok.injEq]
        rintro rfl
        exact harity

/-- The number of operands that the cursor has passed. -/
def progress (f : Frame) : Nat :=
  match f.cursor with
  | .operand k => k - 1
  | _ => f.scope.operandCount

/-- Does the operator want a value of operand `j`?  Only a choice can do without one: it
wants the second operand unless the first is zero, and the third only if it is. -/
def Wants (f : Frame) (j : Nat) : Prop :=
  f.scope.control = .ok .ifElse → (j = 2 → f.slot 1 ≠ some 0) ∧ (j = 3 → f.slot 1 = some 0)

theorem wants_one (f : Frame) : f.Wants 1 := by
  intro _
  constructor
  · intro h
    cases h
  · intro h
    cases h

end Frame

/-- The result of an operator from the values of its operands. -/
def Control.resultOf (c : Control) (operand : Nat → Value) : Value :=
  match c with
  | .eq => some (if operand 1 = operand 2 then 1 else 0)
  | .ifElse => if operand 1 = some 0 then operand 3 else operand 2
  | .prog2 => operand 2
  | .prog3 => operand 3

theorem Control.resultOf_congr (c : Control) {v w : Nat → Value} (h : ∀ j, j ≠ 0 → v j = w j) :
    c.resultOf v = c.resultOf w := by
  cases c <;> simp [Control.resultOf, h]

theorem Control.arity_pos (c : Control) : 0 < c.arity := by
  cases c <;> decide

/-- A frame whose slots say what its cursor says. -/
structure Frame.Coherent (f : Frame) : Prop where
  /-- There is a slot for every child. -/
  slots_length : f.slots.length = f.scope.length
  /-- The cursor is at an operand that is there. -/
  cursor_range : ∀ k, f.cursor = .operand k → 1 ≤ k ∧ k ≤ f.scope.operandCount
  /-- An operand that was passed has a value exactly if the operator wants one. -/
  passed : ∀ j, 1 ≤ j → j ≤ f.progress → ((f.slot j).isSome ↔ f.Wants j)
  /-- An operand that was not passed has no value. -/
  ahead : ∀ j, f.progress < j → f.slot j = none
  /-- There is no result before the frame is finished. -/
  unfinished : f.cursor ≠ .finished → f.result = none
  /-- A finished frame has the result of its operator. -/
  finished : f.cursor = .finished →
    ∃ c, f.control = .ok c ∧ f.result = c.resultOf f.slot ∧ f.result.isSome

namespace Frame

variable {f : Frame} {c : Control} {k : Nat} {v : Value}

/-- There is a slot for the result and one for every operand that the operator wants. -/
theorem Coherent.slots_length_of_control (hf : f.Coherent) (hc : f.control = .ok c) :
    f.slots.length = c.arity + 1 := by
  have harity := (control_eq_ok_iff.mp hc).2
  have hpos := c.arity_pos
  rw [Form.operandCount_eq] at harity
  rw [hf.slots_length]
  omega

/-! ## The frame as it is shown -/

theorem phase_eq_evaluating_iff : f.phase = .evaluating ↔ ∃ k, f.cursor = .operand k := by
  unfold phase
  cases f.cursor <;> simp

theorem phase_eq_finished_iff : f.phase = .finished ↔ f.cursor = .finished := by
  unfold phase
  cases f.cursor <;> simp

theorem operandNumber_eq (h : f.cursor = .operand k) : f.operandNumber = k := by
  unfold operandNumber
  rw [h]

theorem At.operandNumber_eq (hat : f.At c k) : f.operandNumber = k :=
  Frame.operandNumber_eq hat.cursor

/-- An evaluating frame has values in front of its operand only. -/
theorem Coherent.evaluating (hf : f.Coherent) (h : f.phase = .evaluating) :
    1 ≤ f.operandNumber ∧ f.operandNumber ≤ f.scope.operandCount ∧
      f.slot 0 = none ∧ (∀ j, f.operandNumber ≤ j → f.slot j = none) ∧
      ∀ j, 1 ≤ j → j < f.operandNumber → ((f.slot j).isSome ↔ f.Wants j) := by
  obtain ⟨k, hk⟩ := phase_eq_evaluating_iff.mp h
  have hrange := hf.cursor_range k hk
  have hprogress : f.progress = k - 1 := by
    unfold progress
    rw [hk]
  have hunfinished : f.cursor ≠ .finished := by
    rw [hk]
    exact Cursor.noConfusion
  rw [operandNumber_eq hk]
  refine ⟨hrange.1, hrange.2, hf.unfinished hunfinished, fun j hj => ?_, fun j h1 hj => ?_⟩
  · exact hf.ahead j (by omega)
  · exact hf.passed j h1 (by omega)

/-- A frame that is not evaluating has all the values that its operator wants. -/
theorem Coherent.settled (hf : f.Coherent) (h : f.phase ≠ .evaluating) :
    f.operandNumber = 0 ∧
      ∀ j, 1 ≤ j → j ≤ f.scope.operandCount → ((f.slot j).isSome ↔ f.Wants j) := by
  have hpassed := hf.passed
  unfold progress at hpassed
  unfold phase at h
  unfold operandNumber
  cases hcur : f.cursor with
  | operand k =>
      rw [hcur] at h
      exact absurd rfl h
  | resolving =>
      rw [hcur] at hpassed
      exact ⟨rfl, hpassed⟩
  | finished =>
      rw [hcur] at hpassed
      exact ⟨rfl, hpassed⟩

/-! ## Entering a form -/

theorem slot_enter (a : Form) (j : Nat) : (enter a).slot j = none := by
  unfold slot enter
  rw [List.getElem?_replicate]
  split <;> rfl

theorem progress_enter (a : Form) : (enter a).progress = 0 := by
  unfold progress enter
  by_cases h : a.operandCount = 0
  · simp [h]
  · simp [h]

theorem enter_coherent (a : Form) : (enter a).Coherent where
  slots_length := by simp [enter]
  cursor_range k hk := by
    unfold enter at hk ⊢
    by_cases h : a.operandCount = 0
    · simp [h] at hk
    · simp only [h, if_false, Cursor.operand.injEq] at hk
      simp only
      omega
  passed j h1 hj := by
    rw [progress_enter] at hj
    omega
  ahead j _ := slot_enter a j
  unfinished _ := slot_enter a 0
  finished h := by
    unfold enter at h
    by_cases hz : a.operandCount = 0
    · simp [hz] at h
    · simp [hz] at h

/-! ## Passing an operand -/

section Passing

variable (hf : f.Coherent) (hat : f.At c k)

include hat in
theorem At.progress_eq : f.progress = k - 1 := by
  unfold progress
  rw [hat.cursor]

include hf hat in
theorem At.range : 1 ≤ k ∧ k ≤ f.scope.operandCount := hf.cursor_range k hat.cursor

include hf hat in
theorem At.lt_slots_length : k < f.slots.length := by
  have hrange := hat.range hf
  rw [Form.operandCount_eq] at hrange
  rw [hf.slots_length]
  omega

theorem At.progress_passed (hk : k ≤ f.scope.operandCount) : (f.passed k).progress = k := by
  unfold progress passed
  by_cases h : f.scope.operandCount ≤ k
  · simp only [h, if_true]
    omega
  · simp only [h, if_false]
    omega

theorem passed_cursor_ne_finished : (f.passed k).cursor ≠ .finished := by
  unfold passed
  by_cases h : f.scope.operandCount ≤ k
  · simp [h]
  · simp [h]

include hf hat in
theorem At.slot_one (hk : 2 ≤ k) : ∃ n, f.slot 1 = some n := by
  have hprogress := hat.progress_eq
  have hset := (hf.passed 1 (Nat.le_refl 1) (by omega)).mpr f.wants_one
  exact Option.isSome_iff_exists.mp hset

include hf hat in
/-- What the operator takes is what it wants. -/
theorem At.takes_iff_wants : f.takes c k = true ↔ f.Wants k := by
  obtain ⟨hscope, harity⟩ := control_eq_ok_iff.mp hat.control
  have hrange := hat.range hf
  by_cases hc : c = .ifElse
  · subst hc
    have hk : k = 1 ∨ k = 2 ∨ k = 3 := by
      rw [harity, Control.arity] at hrange
      omega
    rcases hk with rfl | rfl | rfl
    · simp [takes, f.wants_one]
    · obtain ⟨n, hn⟩ := hat.slot_one hf (by decide)
      simp [takes, Wants, hscope, hn, Value.truthy]
    · obtain ⟨n, hn⟩ := hat.slot_one hf (by decide)
      simp [takes, Wants, hscope, hn, Value.truthy]
  · have hwants : f.Wants k := fun hif => by
      rw [hscope] at hif
      exact absurd (Except.ok.inj hif) hc
    have htakes : f.takes c k = true := by
      cases c with
      | ifElse => exact absurd rfl hc
      | eq => rfl
      | prog2 => rfl
      | prog3 => rfl
    simp [hwants, htakes]

end Passing

/-- The first slot decides what a choice wants, so other slots do not matter. -/
theorem wants_congr {g : Frame} {j : Nat} (hscope : g.scope = f.scope)
    (hslot : 2 ≤ j → g.slot 1 = f.slot 1) : g.Wants j ↔ f.Wants j := by
  unfold Wants
  rw [hscope]
  by_cases hj : 2 ≤ j
  · rw [hslot hj]
  · have h2 : j ≠ 2 := by omega
    have h3 : j ≠ 3 := by omega
    simp [h2, h3]

/-- A frame stays coherent when its cursor passes an operand, whose slot gets a value
exactly if the operator takes the operand. -/
theorem Coherent.fill (hf : f.Coherent) (hat : f.At c k)
    (hv : v.isSome = true ↔ f.takes c k = true) : (f.fill k v).Coherent := by
  have hrange := hat.range hf
  have hprogress : (f.fill k v).progress = k :=
    At.progress_passed (f := f.store k v) hrange.2
  have hself : (f.fill k v).slot k = v := slot_store_self (hat.lt_slots_length hf)
  have hother : ∀ j, j ≠ k → (f.fill k v).slot j = f.slot j := fun j hj => slot_store_ne hj
  constructor
  case slots_length =>
    show (f.slots.set k v).length = f.scope.length
    rw [List.length_set, hf.slots_length]
  case cursor_range =>
    intro i hi
    show 1 ≤ i ∧ i ≤ f.scope.operandCount
    unfold Frame.fill Frame.passed at hi
    by_cases h : f.scope.operandCount ≤ k
    · simp [store, h] at hi
    · simp only [store, h, if_false, Cursor.operand.injEq] at hi
      omega
  case passed =>
    intro j h1 hj
    rw [hprogress] at hj
    have hwants : (f.fill k v).Wants j ↔ f.Wants j := by
      refine wants_congr rfl fun h2 => ?_
      exact hother 1 (by omega)
    rw [hwants]
    by_cases hjk : j = k
    · subst hjk
      rw [hself, ← hat.takes_iff_wants hf]
      exact hv
    · rw [hother j hjk]
      exact hf.passed j h1 (by rw [hat.progress_eq]; omega)
  case ahead =>
    intro j hj
    rw [hprogress] at hj
    rw [hother j (by omega)]
    exact hf.ahead j (by rw [hat.progress_eq]; omega)
  case unfinished =>
    intro _
    have hne : f.cursor ≠ .finished := by
      rw [hat.cursor]
      exact Cursor.noConfusion
    exact (hother 0 (by omega)).trans (hf.unfinished hne)
  case finished =>
    intro h
    exact absurd h passed_cursor_ne_finished

/-- Leaving out the operand at the cursor is the same as giving it no value. -/
theorem At.passed_eq_fill (hf : f.Coherent) (hat : f.At c k) : f.passed k = f.fill k none := by
  have hnone : f.slot k = none := by
    have hrange := hat.range hf
    exact hf.ahead k (by rw [hat.progress_eq]; omega)
  have hset : f.slots.set k none = f.slots := by
    have hlt := hat.lt_slots_length hf
    have hget : f.slots[k] = none := by simpa [slot, hlt] using hnone
    rw [← hget, List.set_getElem_self]
  unfold Frame.fill store
  rw [hset]

/-! ## Resolving a form -/

section Resolving

variable (hf : f.Coherent) (hcur : f.cursor = .resolving) (hc : f.control = .ok c)

include hf hcur hc in
theorem Coherent.operand_isSome {j : Nat} (h1 : 1 ≤ j) (hj : j ≤ c.arity) :
    (f.slot j).isSome = true ↔ f.Wants j := by
  have harity := (control_eq_ok_iff.mp hc).2
  refine hf.passed j h1 ?_
  unfold progress
  rw [hcur]
  simp only
  omega

include hf hcur hc in
/-- What a frame computes is the result of its operator, and there is one. -/
theorem Coherent.resolved_eq : f.resolved c = c.resultOf f.slot ∧ (f.resolved c).isSome := by
  have hscope := (control_eq_ok_iff.mp hc).1
  have hlen : f.slots.length - 1 = c.arity := by
    rw [hf.slots_length_of_control hc, Nat.add_sub_cancel]
  have hset := fun {j : Nat} h1 hj => hf.operand_isSome hcur hc (j := j) h1 hj
  -- Operators other than a choice want all their operands.
  have hwants : c ≠ .ifElse → ∀ j, f.Wants j := fun hne j hif => by
    rw [hscope] at hif
    exact absurd (Except.ok.inj hif) hne
  cases c with
  | eq =>
      have hone := (hset (j := 1) (by decide) (by decide)).mpr (hwants (by decide) 1)
      simp [resolved, Control.resultOf, Value.ofBool, hone]
  | prog2 =>
      have htwo := (hset (j := 2) (by decide) (by decide)).mpr (hwants (by decide) 2)
      simp only [resolved, hlen, Control.resultOf, Control.arity, true_and]
      exact htwo
  | prog3 =>
      have hthree := (hset (j := 3) (by decide) (by decide)).mpr (hwants (by decide) 3)
      simp only [resolved, hlen, Control.resultOf, Control.arity, true_and]
      exact hthree
  | ifElse =>
      have hone := (hset (j := 1) (by decide) (by decide)).mpr f.wants_one
      obtain ⟨n, hn⟩ := Option.isSome_iff_exists.mp hone
      by_cases hz : n = 0
      · have hthree := (hset (j := 3) (by decide) (by decide)).mpr fun _ =>
          ⟨fun h => absurd h (by decide), fun _ => by rw [hn, hz]⟩
        simp [resolved, Control.resultOf, hn, hz, Value.truthy, hthree]
      · have htwo := (hset (j := 2) (by decide) (by decide)).mpr fun _ =>
          ⟨fun _ => by rw [hn]; simpa using hz, fun h => absurd h (by decide)⟩
        simp [resolved, Control.resultOf, hn, hz, Value.truthy, htwo]

include hf hcur hc in
/-- A frame stays coherent when its form is resolved. -/
theorem Coherent.finishWith : (f.finishWith (f.resolved c)).Coherent := by
  obtain ⟨hresult, hsome⟩ := hf.resolved_eq hcur hc
  have hpos : 0 < f.slots.length := by
    rw [hf.slots_length_of_control hc]
    exact Nat.succ_pos _
  have hself : (f.finishWith (f.resolved c)).slot 0 = f.resolved c := slot_store_self hpos
  have hother : ∀ j, j ≠ 0 → (f.finishWith (f.resolved c)).slot j = f.slot j := fun j hj =>
    slot_store_ne hj
  have hprogress : (f.finishWith (f.resolved c)).progress = f.progress := by
    unfold progress
    rw [hcur]
    rfl
  constructor
  case slots_length =>
    show (f.slots.set 0 (f.resolved c)).length = f.scope.length
    rw [List.length_set, hf.slots_length]
  case cursor_range =>
    intro k hk
    cases hk
  case passed =>
    intro j h1 hj
    rw [hprogress] at hj
    have hwants : (f.finishWith (f.resolved c)).Wants j ↔ f.Wants j :=
      wants_congr rfl fun _ => hother 1 (by decide)
    rw [hother j (by omega), hwants]
    exact hf.passed j h1 hj
  case ahead =>
    intro j hj
    rw [hprogress] at hj
    rw [hother j (by omega)]
    exact hf.ahead j hj
  case unfinished =>
    intro h
    exact absurd rfl h
  case finished =>
    intro _
    refine ⟨c, hc, ?_, ?_⟩
    · calc (f.finishWith (f.resolved c)).slot 0
          = f.resolved c := hself
        _ = c.resultOf f.slot := hresult
        _ = c.resultOf (f.finishWith (f.resolved c)).slot :=
            (c.resultOf_congr hother).symm
    · show ((f.finishWith (f.resolved c)).slot 0).isSome = true
      rw [hself]
      exact hsome

end Resolving

end Frame

end Stepwise
