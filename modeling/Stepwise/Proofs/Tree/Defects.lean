import Stepwise.Proofs.Tree.Language

/-!
# Which defect validation reports

A tree may have many defects, and validation reports one.  Its walk keeps a list of forms for
later and takes the last one found first.  `Node.firstDefect` searches the same tree by
recursion: the form itself, then the forms below it from right to left.  The two report the
same refusal (`Form.validate_eq_elim`), because at every moment the walk reports the first
defect along its work list (`validateAll_eq_elim`).

Which defect that is can be said without any walk.  In one form it is the operator, then the
number of operands, then the first operand from the left that is refused (`Form.Defect`).  In a
form without such a defect it is the one reported for the rightmost form below it that is not a
program (`Form.Reports`).
-/

namespace Stepwise

/-! ## The defect of one form -/

/-- Why operand `k` of the form `a` is refused, if it is the given node. -/
inductive Form.Objects (a : Form) (k : Nat) : Node → Malformed → Prop where
  /-- There is no node. -/
  | missing : a.Objects k .missing (a.refuse (.operandMissing k))
  /-- The name means nothing. -/
  | unknown {name : String} : Op.ofName? name = none →
      a.Objects k (.terminal name) ⟨some (.terminal name), .notFunction name⟩
  /-- The name is that of a control operator. -/
  | control (c : Control) :
      a.Objects k (.terminal c.name) ⟨some (.terminal c.name), .notOperand c.name⟩

/-- What is wrong with a form itself, whatever is inside its operands. -/
inductive Form.Defect (a : Form) : Malformed → Prop where
  /-- No terminal stands in operator position. -/
  | noOperator : a.operator? = none → a.Defect (a.refuse .operatorMissing)
  /-- The operator is not a control operator. -/
  | notControl {name : String} : a.operator? = some name → (∀ c : Control, c.name ≠ name) →
      a.Defect (a.refuse (.notFunction name))
  /-- The operator wants another number of operands. -/
  | arity {c : Control} : a.control = .ok c → a.operandCount ≠ c.arity →
      a.Defect (a.refuse (.arity c a.operandCount))
  /-- The first operand that does not fit is refused. -/
  | operand {c : Control} {before after : List Node} {n : Node} {e : Malformed} :
      a.control = .ok c → a.operandCount = c.arity → a.operands = before ++ n :: after →
      (∀ x ∈ before, x.Fits) → a.Objects (before.length + 1) n e → a.Defect e

namespace Form

variable {a : Form} {k : Nat} {n : Node} {ns : List Node} {e : Malformed}

theorem checkOperand_eq_error_iff : a.checkOperand k n = .error e ↔ a.Objects k n e := by
  cases n with
  | missing =>
      simp only [checkOperand, Except.error.injEq]
      constructor
      · rintro rfl
        exact .missing
      · rintro ⟨⟩
        rfl
  | form b =>
      constructor
      · rintro ⟨⟩
      · rintro ⟨⟩
  | terminal name =>
      simp only [checkOperand, leafNamed]
      constructor
      · intro h
        cases hop : Op.ofName? name with
        | none =>
            rw [hop] at h
            cases h
            exact .unknown hop
        | some op =>
            cases op with
            | leaf l =>
                rw [hop] at h
                cases h
            | control c =>
                rw [hop] at h
                cases h
                obtain rfl : c.name = name := Op.name_of_ofName? hop
                exact .control c
      · intro h
        cases h with
        | unknown hop => rw [hop]; rfl
        | control c =>
            have hop : Op.ofName? c.name = some (.control c) := Op.ofName?_name (.control c)
            rw [hop]
            rfl

theorem checkOperands_append {before : List Node} (h : ∀ x ∈ before, x.Fits) :
    a.checkOperands k (before ++ ns) = a.checkOperands (before.length + k) ns := by
  induction before generalizing k with
  | nil => rw [List.nil_append, List.length_nil, Nat.zero_add]
  | cons x before ih =>
      obtain ⟨hx, hbefore⟩ := List.forall_mem_cons.mp h
      rw [List.cons_append, checkOperands, checkOperand_eq_ok_iff.mpr hx, List.length_cons,
        Nat.add_right_comm, Nat.add_assoc]
      exact ih hbefore

/-- The operands are refused for the first of them that does not fit. -/
theorem checkOperands_eq_error_iff : a.checkOperands k ns = .error e ↔
    ∃ before n after, ns = before ++ n :: after ∧ (∀ x ∈ before, x.Fits) ∧
      a.Objects (before.length + k) n e := by
  constructor
  · intro h
    induction ns generalizing k with
    | nil => cases h
    | cons n ns ih =>
        rw [checkOperands] at h
        cases hn : a.checkOperand k n with
        | error e' =>
            rw [hn] at h
            cases h
            have hobject := checkOperand_eq_error_iff.mp hn
            exact ⟨[], n, ns, rfl, by simp, by simpa using hobject⟩
        | ok u =>
            rw [hn] at h
            obtain ⟨before, n', after, rfl, hfits, hobject⟩ := ih h
            have hfit : n.Fits := checkOperand_eq_ok_iff.mp hn
            refine ⟨n :: before, n', after, rfl, List.forall_mem_cons.mpr ⟨hfit, hfits⟩, ?_⟩
            rw [List.length_cons, Nat.add_right_comm, Nat.add_assoc]
            exact hobject
  · rintro ⟨before, n, after, rfl, hfits, hobject⟩
    rw [checkOperands_append hfits, checkOperands, checkOperand_eq_error_iff.mpr hobject]

/-- No control operator goes by the name. -/
theorem ofName?_ne_control {name : String} (h : ∀ c : Control, c.name ≠ name) (c : Control) :
    Op.ofName? name ≠ some (.control c) :=
  fun hop => h c (Op.name_of_ofName? hop)

/-- The check of a form fails with its defect. -/
theorem check_eq_error_iff : a.check = .error e ↔ a.Defect e := by
  constructor
  · intro h
    unfold check at h
    cases hc : a.control with
    | error e' =>
        rw [hc] at h
        cases h
        unfold control at hc
        split at hc
        next hname =>
            cases hc
            exact .noOperator hname
        next name hname =>
            split at hc
            next => cases hc
            next hno =>
                cases hc
                refine .notControl hname fun c hcname => hno c ?_
                rw [← hcname]
                exact Op.ofName?_name (.control c)
    | ok c =>
        simp only [hc] at h
        split at h
        next harity =>
            obtain ⟨before, n, after, hns, hfits, hobject⟩ := checkOperands_eq_error_iff.mp h
            exact .operand hc harity hns hfits hobject
        next harity =>
            cases h
            exact .arity hc harity
  · intro h
    cases h with
    | noOperator hname => simp [check, control, hname]
    | @notControl name hname hne =>
        have hcontrol : a.control = .error (a.refuse (.notFunction name)) := by
          simp only [control, hname]
          split
          next c hc => exact absurd hc (ofName?_ne_control hne c)
          next => rfl
        rw [check, hcontrol]
    | arity hc harity => simp [check, hc, harity]
    | operand hc harity hns hfits hobject =>
        have hoperands := checkOperands_eq_error_iff.mpr ⟨_, _, _, hns, hfits, hobject⟩
        simp [check, hc, harity, hoperands]

end Form

/-! ## The walk and the recursion -/

/-- The last defect of some trees is the first that the forms among them have, from right to
left. -/
theorem Node.lastDefect_eq (ns : List Node) :
    Node.lastDefect ns =
      (ns.filterMap Node.form?).reverse.findSome? fun b => (Node.form b).firstDefect := by
  induction ns with
  | nil => rfl
  | cons n ns ih =>
      have hcons : Node.lastDefect (n :: ns) = (Node.lastDefect ns).or n.firstDefect := by
        rw [Node.lastDefect]
        cases Node.lastDefect ns <;> rfl
      rw [hcons, ih]
      cases n with
      | missing => rw [Node.firstDefect, Option.or_none]; rfl
      | terminal name => rw [Node.firstDefect, Option.or_none]; rfl
      | form a =>
          have hfilter : (Node.form a :: ns).filterMap Node.form? =
              a :: ns.filterMap Node.form? := rfl
          rw [hfilter, List.reverse_cons, List.findSome?_append, List.findSome?_singleton]

/-- The first defect of a form is its own, or else the first of the forms below it from right
to left. -/
theorem Node.firstDefect_form (a : Form) :
    (Node.form a).firstDefect =
      match a.check with
      | .error e => some e
      | .ok () => a.subforms.reverse.findSome? fun b => (Node.form b).firstDefect := by
  cases a with
  | nil => rfl
  | cons operator operands =>
      rw [Node.firstDefect, Node.lastDefect_eq]
      rfl

/-- The walk reports the first defect along its work list. -/
theorem validateAll_eq_elim (work : List Form) :
    validateAll work =
      (work.findSome? fun a => (Node.form a).firstDefect).elim (.ok ()) .error := by
  induction work using validateAll.induct with
  | case1 => rw [validateAll]; rfl
  | case2 a work e hcheck =>
      rw [validateAll, hcheck, List.findSome?_cons, Node.firstDefect_form, hcheck]
      rfl
  | case3 a work hcheck ih =>
      -- The forms below `a` come next, from right to left, as the recursion visits them.
      rw [validateAll, hcheck, List.findSome?_cons, Node.firstDefect_form, hcheck]
      simp only
      rw [ih, List.findSome?_append]
      cases List.findSome? _ _ <;> rfl

theorem Form.validate_eq_elim (a : Form) :
    a.validate = (Node.form a).firstDefect.elim (.ok ()) .error := by
  rw [Form.validate, validateAll_eq_elim, List.findSome?_singleton]

theorem Form.validate_eq_error_iff {a : Form} {e : Malformed} :
    a.validate = .error e ↔ (Node.form a).firstDefect = some e := by
  rw [Form.validate_eq_elim]
  cases (Node.form a).firstDefect <;> simp

theorem Node.firstDefect_eq_none_iff {a : Form} :
    (Node.form a).firstDefect = none ↔ Program a := by
  rw [← Form.validate_eq_ok_iff, Form.validate_eq_elim]
  cases (Node.form a).firstDefect <;> simp

/-! ## The reported defect -/

/-- The refusal of a form that is not a program: its own defect if it has one, and otherwise that
of the rightmost form below it that is not a program. -/
inductive Form.Reports : Form → Malformed → Prop where
  | here {a : Form} {e : Malformed} : a.Defect e → a.Reports e
  | inside {a b : Form} {left right : List Form} {e : Malformed} :
      (∀ e', ¬ a.Defect e') → a.subforms = left ++ b :: right → (∀ c ∈ right, Program c) →
      b.Reports e → a.Reports e

theorem Form.check_eq_ok_of_no_defect {a : Form} (h : ∀ e, ¬ a.Defect e) : a.check = .ok () := by
  cases hcheck : a.check with
  | error e => exact absurd (Form.check_eq_error_iff.mp hcheck) (h e)
  | ok u => rfl

theorem Form.Reports.firstDefect_eq {a : Form} {e : Malformed} (h : a.Reports e) :
    (Node.form a).firstDefect = some e := by
  induction h with
  | here hdefect => rw [Node.firstDefect_form, Form.check_eq_error_iff.mpr hdefect]
  | @inside a b left right e hown hsub hright _ ih =>
      rw [Node.firstDefect_form, Form.check_eq_ok_of_no_defect hown, hsub]
      simp only
      rw [List.findSome?_eq_some_iff]
      refine ⟨right.reverse, b, left.reverse, by simp, ih, fun c hc => ?_⟩
      exact Node.firstDefect_eq_none_iff.mpr (hright c (List.mem_reverse.mp hc))

theorem Form.reports_of_firstDefect {a : Form} {e : Malformed}
    (h : (Node.form a).firstDefect = some e) : a.Reports e := by
  rw [Node.firstDefect_form] at h
  cases hcheck : a.check with
  | error e' =>
      rw [hcheck] at h
      cases h
      exact .here (Form.check_eq_error_iff.mp hcheck)
  | ok u =>
      rw [hcheck] at h
      obtain ⟨right, b, left, hsub, hb, hright⟩ := List.findSome?_eq_some_iff.mp h
      have hsub := List.reverse_eq_append_iff.mp hsub
      rw [List.reverse_cons, List.append_assoc] at hsub
      have hdecrease : sizeOf b < sizeOf a := by
        have hmem : .form b ∈ a.operands := Form.mem_subforms_iff.mp (by simp [hsub])
        have hlt := List.sizeOf_lt_of_mem (List.mem_of_mem_tail hmem)
        simp at hlt
        omega
      refine .inside (fun e' hdefect => ?_) hsub (fun c hc => ?_) (Form.reports_of_firstDefect hb)
      · rw [Form.check_eq_error_iff.mpr hdefect] at hcheck
        cases hcheck
      · exact Node.firstDefect_eq_none_iff.mp (hright c (List.mem_reverse.mp hc))
termination_by sizeOf a

/-- Validation of a form reports what the recursive search finds first, with the same node and the
same reason, however many defects there are.  It is the defect that comes first in the form
itself, or else the one reported for the rightmost form below it that is not a program. -/
theorem Form.validate_reports (a : Form) :
    (Node.form a).validate = (Node.form a).firstDefect.elim (.ok ()) .error ∧
    ∀ e, (Node.form a).validate = .error e ↔ a.Reports e := by
  refine ⟨Form.validate_eq_elim a, fun e => ?_⟩
  have hiff : (Node.form a).validate = .error e ↔ (Node.form a).firstDefect = some e :=
    Form.validate_eq_error_iff
  rw [hiff]
  exact ⟨Form.reports_of_firstDefect, Form.Reports.firstDefect_eq⟩

/-- The second operand is visited first, and its operator is looked at before its operand. -/
example :
    (Node.form (Form.prog2 (.form (Form.eq .missing .missing))
      (.form [.terminal "jump", .missing]))).validate =
      .error (Form.refuse [.terminal "jump", .missing] (.notFunction "jump")) := by
  decide +kernel

end Stepwise
