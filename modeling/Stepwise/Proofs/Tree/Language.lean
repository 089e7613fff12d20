import Mathlib.Data.List.Basic
import Stepwise.Tree.Validation

/-!
# Validation accepts the language of programs

`Program` says what a program is by its four shapes, and validation says it by a walk.
The two meet in a third description of one form (`program_iff`): its operator is a
control operator, it has that operator's number of operands, and every operand is a
leaf or a program.

The walk checks a form without looking inside its operands, and it keeps the forms
found among them for later.  So a form is a program exactly if it passes its own check
and the forms directly below it are programs (`program_iff_check`).  Along a work list
this gives `validateAll_eq_ok_iff`, whose case of one form is
`Form.validate_eq_ok_iff`.

The walk ends because each round takes away a form and puts back less than it had.
`validateWithin` is the walk with a bound on its rounds, and as many rounds as there
are nodes are enough (`validateWithin_eq`).
-/

namespace Stepwise

/-! ## Looking names up -/

@[simp] theorem leafNamed_name (l : Leaf) : leafNamed l.name = .ok l := by
  have h : Op.ofName? l.name = some (.leaf l) := Op.ofName?_name (.leaf l)
  rw [leafNamed, h]

theorem leafNamed_eq_ok_iff {name : String} {l : Leaf} :
    leafNamed name = .ok l ↔ name = l.name := by
  constructor
  · intro h
    unfold leafNamed at h
    split at h
    next l' hop =>
        obtain rfl : l' = l := by simpa using h
        exact (Op.name_of_ofName? hop).symm
    next => cases h
    next => cases h
  · rintro rfl
    exact leafNamed_name l

@[simp] theorem Form.control_ofControl (c : Control) (ns : List Node) :
    (Form.ofControl c ns).control = .ok c := by
  have h : Op.ofName? c.name = some (.control c) := Op.ofName?_name (.control c)
  simp only [Form.control, Form.ofControl, Form.operator?, h]

theorem Form.control_eq_ok_iff {a : Form} {c : Control} :
    a.control = .ok c ↔ ∃ ns, a = Form.ofControl c ns := by
  constructor
  · intro h
    unfold Form.control at h
    split at h
    next => cases h
    next name hname =>
        split at h
        next c' hop =>
            obtain rfl : c' = c := by simpa using h
            unfold Form.operator? at hname
            split at hname
            next name' ns =>
                obtain rfl : name' = name := by simpa using hname
                obtain rfl : c'.name = name' := Op.name_of_ofName? hop
                exact ⟨ns, rfl⟩
            next => cases hname
        next => cases h
  · rintro ⟨ns, rfl⟩
    exact Form.control_ofControl c ns

@[simp] theorem Form.operands_ofControl (c : Control) (ns : List Node) :
    (Form.ofControl c ns).operands = ns := rfl

@[simp] theorem Form.operandCount_ofControl (c : Control) (ns : List Node) :
    (Form.ofControl c ns).operandCount = ns.length := rfl

/-! ## The three kinds of operand -/

theorem not_operand_missing : ¬ Operand .missing := by
  intro h
  cases h

theorem operand_terminal_iff {name : String} :
    Operand (.terminal name) ↔ ∃ l, leafNamed name = .ok l := by
  constructor
  · intro h
    generalize hn : Node.terminal name = n at h
    cases h with
    | leaf l =>
        obtain rfl : name = l.name := by simpa [Leaf.node] using hn
        exact ⟨l, leafNamed_name l⟩
    | program => cases hn
  · rintro ⟨l, hl⟩
    rw [leafNamed_eq_ok_iff.mp hl]
    exact .leaf l

theorem operand_form_iff {a : Form} : Operand (.form a) ↔ Program a := by
  constructor
  · intro h
    generalize hn : Node.form a = n at h
    cases h with
    | leaf l => cases hn
    | program hp =>
        cases hn
        exact hp
  · exact .program

/-! ## One form -/

/-- A form is a program if its operator is a control operator with as many operands as
it wants, all of them leaves or programs. -/
theorem program_iff {a : Form} :
    Program a ↔
      ∃ c, a.control = .ok c ∧ a.operandCount = c.arity ∧ ∀ n ∈ a.operands, Operand n := by
  constructor
  · intro h
    cases h with
    | ifElse hc ht he => exact ⟨.ifElse, by simp [Form.ifElse, Control.arity, hc, ht, he]⟩
    | eq ha hb => exact ⟨.eq, by simp [Form.eq, Control.arity, ha, hb]⟩
    | prog2 ha hb => exact ⟨.prog2, by simp [Form.prog2, Control.arity, ha, hb]⟩
    | prog3 ha hb hc => exact ⟨.prog3, by simp [Form.prog3, Control.arity, ha, hb, hc]⟩
  · rintro ⟨c, hc, hlen, hns⟩
    obtain ⟨ns, rfl⟩ := Form.control_eq_ok_iff.mp hc
    rw [Form.operandCount_ofControl] at hlen
    rw [Form.operands_ofControl] at hns
    cases c with
    | ifElse =>
        obtain ⟨x, y, z, rfl⟩ := List.length_eq_three.mp hlen
        exact .ifElse (hns x (by simp)) (hns y (by simp)) (hns z (by simp))
    | eq =>
        obtain ⟨x, y, rfl⟩ := List.length_eq_two.mp hlen
        exact .eq (hns x (by simp)) (hns y (by simp))
    | prog2 =>
        obtain ⟨x, y, rfl⟩ := List.length_eq_two.mp hlen
        exact .prog2 (hns x (by simp)) (hns y (by simp))
    | prog3 =>
        obtain ⟨x, y, z, rfl⟩ := List.length_eq_three.mp hlen
        exact .prog3 (hns x (by simp)) (hns y (by simp)) (hns z (by simp))

/-- A number up to the arity is that of an operand. -/
theorem Program.operand {a : Form} (h : Program a) {k : Nat} (h1 : 1 ≤ k)
    (hk : k ≤ a.operandCount) : ∃ n, a.operand? k = some n ∧ Operand n := by
  obtain ⟨c, hc, -, hns⟩ := program_iff.mp h
  obtain ⟨ns, rfl⟩ := Form.control_eq_ok_iff.mp hc
  obtain ⟨j, rfl⟩ := Nat.exists_eq_add_of_le' h1
  have hj : j < ns.length := hk
  exact ⟨ns[j], List.getElem?_eq_getElem hj, hns _ (List.getElem_mem hj)⟩

/-- A form among the children of a program is a program. -/
theorem Program.subform {a b : Form} (h : Program a) {k : Nat}
    (hn : a.operand? k = some (.form b)) : Program b := by
  obtain ⟨c, hc, -, hns⟩ := program_iff.mp h
  obtain ⟨ns, rfl⟩ := Form.control_eq_ok_iff.mp hc
  cases k with
  | zero => cases hn
  | succ j =>
      have hmem : .form b ∈ ns := List.mem_of_getElem? hn
      exact operand_form_iff.mp (hns _ hmem)

/-- What the check of a form asks of one operand: it is a form, or a leaf. -/
def Node.Fits : Node → Prop
  | .missing => False
  | .terminal name => ∃ l, leafNamed name = .ok l
  | .form _ => True

theorem Form.checkOperand_eq_ok_iff {a : Form} {k : Nat} {n : Node} :
    a.checkOperand k n = .ok () ↔ n.Fits := by
  cases n with
  | missing => simp [Form.checkOperand, Node.Fits]
  | terminal name =>
      cases h : leafNamed name with
      | error e => simp [Form.checkOperand, Node.Fits, h, Except.map]
      | ok l => simp [Form.checkOperand, Node.Fits, h, Except.map]
  | form b => simp [Form.checkOperand, Node.Fits]

theorem Form.checkOperands_eq_ok_iff {a : Form} {k : Nat} {ns : List Node} :
    a.checkOperands k ns = .ok () ↔ ∀ n ∈ ns, n.Fits := by
  induction ns generalizing k with
  | nil => simp [Form.checkOperands]
  | cons n ns ih =>
      rw [Form.checkOperands, List.forall_mem_cons]
      cases h : a.checkOperand k n with
      | error e =>
          have hn : ¬ n.Fits := fun hf => by
            rw [Form.checkOperand_eq_ok_iff.mpr hf] at h
            cases h
          simp [hn]
      | ok u => simp [Form.checkOperand_eq_ok_iff.mp h, ih]

/-- The check of one form, said without its order. -/
theorem Form.check_eq_ok_iff {a : Form} :
    a.check = .ok () ↔
      ∃ c, a.control = .ok c ∧ a.operandCount = c.arity ∧ ∀ n ∈ a.operands, n.Fits := by
  unfold Form.check
  cases hc : a.control with
  | error e => simp
  | ok c =>
      by_cases harity : a.operandCount = c.arity
      · simp [harity, Form.checkOperands_eq_ok_iff]
      · simp [harity]

/-! ## The walk -/

theorem Form.mem_subforms_iff {a b : Form} : b ∈ a.subforms ↔ .form b ∈ a.operands := by
  rw [Form.subforms, List.mem_filterMap]
  constructor
  · rintro ⟨n, hn, hb⟩
    cases n with
    | missing => cases hb
    | terminal name => cases hb
    | form b' =>
        obtain rfl : b' = b := by simpa [Node.form?] using hb
        exact hn
  · intro hb
    exact ⟨.form b, hb, rfl⟩

/-- An operand is one that passes the check, and is a program if it is a form. -/
theorem operand_iff_fits {n : Node} : Operand n ↔ n.Fits ∧ ∀ b, n = .form b → Program b := by
  cases n with
  | missing => simp [Node.Fits, not_operand_missing]
  | terminal name => simp [Node.Fits, operand_terminal_iff]
  | form b => simp [Node.Fits, operand_form_iff]

/-- A form is a program if it passes its own check and the forms below it are programs. -/
theorem program_iff_check {a : Form} :
    Program a ↔ a.check = .ok () ∧ ∀ b ∈ a.subforms, Program b := by
  rw [program_iff, Form.check_eq_ok_iff]
  constructor
  · rintro ⟨c, hc, harity, hns⟩
    refine ⟨⟨c, hc, harity, fun n hn => (operand_iff_fits.mp (hns n hn)).1⟩, fun b hb => ?_⟩
    exact operand_form_iff.mp (hns _ (Form.mem_subforms_iff.mp hb))
  · rintro ⟨⟨c, hc, harity, hfit⟩, hsub⟩
    refine ⟨c, hc, harity, fun n hn => operand_iff_fits.mpr ⟨hfit n hn, ?_⟩⟩
    rintro b rfl
    exact hsub b (Form.mem_subforms_iff.mpr hn)

/-- The walk over a work list accepts if every form of the list is a program. -/
theorem validateAll_eq_ok_iff (work : List Form) :
    validateAll work = .ok () ↔ ∀ a ∈ work, Program a := by
  induction work using validateAll.induct with
  | case1 => simp [validateAll]
  | case2 a work e hcheck =>
      rw [validateAll, hcheck]
      have ha : ¬ Program a := fun hp => by
        rw [(program_iff_check.mp hp).1] at hcheck
        cases hcheck
      simp [ha]
  | case3 a work hcheck ih =>
      -- The forms below `a` are on the list now, in reverse, and stand for `a` itself.
      have ha : Program a ↔ ∀ b ∈ a.subforms.reverse, Program b := by
        rw [program_iff_check]
        simp [hcheck]
      rw [validateAll, hcheck, List.forall_mem_cons, ha, ← List.forall_mem_append]
      exact ih

/-- Validation accepts a form exactly if it is a program. -/
theorem Form.validate_eq_ok_iff {a : Form} : a.validate = .ok () ↔ Program a := by
  rw [Form.validate, validateAll_eq_ok_iff]
  simp

theorem Node.validate_eq_ok_iff {n : Node} :
    n.validate = .ok () ↔ ∃ a, n = .form a ∧ Program a := by
  cases n with
  | missing => simp [Node.validate]
  | terminal name => simp [Node.validate]
  | form a => simp [Node.validate, Form.validate_eq_ok_iff]

/-! ## The walk ends -/

/-- The walk over a work list in at most `rounds` rounds, and nothing if it is not over then. -/
def validateWithin : Nat → List Form → Option (Except Malformed Unit)
  | _, [] => some (.ok ())
  | 0, _ :: _ => none
  | rounds + 1, a :: work =>
    match a.check with
    | .error e => some (.error e)
    | .ok () => validateWithin rounds (a.subforms.reverse ++ work)

theorem validateWithin_eq {rounds : Nat} {work : List Form} (h : Form.totalNodes work ≤ rounds) :
    validateWithin rounds work = some (validateAll work) := by
  induction rounds generalizing work with
  | zero =>
      cases work with
      | nil => simp [validateWithin, validateAll]
      | cons a work =>
          have hpos := (Node.form a).nodeCount_pos
          rw [Form.totalNodes] at h
          omega
  | succ rounds ih =>
      cases work with
      | nil => simp [validateWithin, validateAll]
      | cons a work =>
          rw [validateWithin, validateAll]
          cases a.check with
          | error e => rfl
          | ok u =>
              have hless := Form.totalNodes_subforms_lt a
              rw [Form.totalNodes] at h
              apply ih
              rw [Form.totalNodes_append, Form.totalNodes_reverse]
              omega

/-- Validation of a tree in at most `rounds` rounds of the walk. -/
def Node.validateWithin (rounds : Nat) : Node → Option (Except Malformed Unit)
  | .form a => Stepwise.validateWithin rounds [a]
  | n => some n.validate

/-- Validation accepts the trees that are programs, and those only.  On every tree its walk is over
after no more rounds than the tree has nodes. -/
theorem Node.validate_iff_program (n : Node) :
    (n.validate = .ok () ↔ ∃ a, n = .form a ∧ Program a) ∧
    n.validateWithin n.nodeCount = some n.validate := by
  refine ⟨Node.validate_eq_ok_iff, ?_⟩
  cases n with
  | missing => rfl
  | terminal name => rfl
  | form a => exact validateWithin_eq (Nat.le_refl _)

end Stepwise
