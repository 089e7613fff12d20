import Stepwise.Game.Invaders
import Stepwise.Proofs.Machine.Coherence
import Stepwise.Proofs.Machine.Refinement

/-!
# An observation is equal to itself

A tree without moves only reads the sensors of the game.  If reading changes nothing, then
evaluating such a tree leaves the game as it was (`Operand.observes`), so evaluating it once
more gives the same value.  A choice that compares it with itself takes its second operand,
and a round does what that operand does from the start (`Machine.round_of_self_equality`).

That nothing of the third operand is evaluated is said about the steps themselves
(`LeavesOut`), since the same trees may also stand elsewhere in the program.  It rests on the
order in which a frame is worked off.  In a round the frame of the program only goes forward,
and keeps the values of the operands that it has passed (`Frame.Precedes`).
-/

namespace Stepwise

variable {σ : Type} {env : Environment σ} {program : Form}

/-! ## Reading without a trace -/

/-- Reading a sensor changes nothing in the game. -/
def Environment.Pure (env : Environment σ) : Prop := ∀ x s, (env.read x s).2 = s

theorem invaders_pure : invaders.Pure := by
  intro x g
  cases x <;> rfl

namespace Node

mutual

/-- Does a terminal of the tree name a move? -/
def acts : Node → Bool
  | .missing => false
  | .terminal name => (Op.ofName? name).map Op.kind = some .action
  | .form children => actsAny children

/-- Does a terminal of the trees of a list name a move? -/
def actsAny : List Node → Bool
  | [] => false
  | n :: ns => acts n || actsAny ns

end

theorem acts_move (v : Move) : (Leaf.move v).node.acts = true := by
  have h : Op.ofName? (Leaf.move v).name = some (.leaf (.move v)) :=
    Op.ofName?_name (.leaf (.move v))
  simp [Leaf.node, acts, h, Op.kind]

theorem acts_of_mem {n : Node} : ∀ {ns : List Node}, actsAny ns = false → n ∈ ns → n.acts = false
  | n' :: ns, h, hn => by
      rw [actsAny, Bool.or_eq_false_iff] at h
      rcases List.mem_cons.mp hn with rfl | hn
      · exact h.1
      · exact acts_of_mem h.2 hn

end Node

/-- The evaluation from the state `s` told the game nothing and left it as it was. -/
structure Evaluated.Observes (u : Evaluated σ) (s : σ) : Prop where
  state : u.state = s
  reads : ∀ c ∈ u.calls, c.action? = none

theorem Evaluated.Observes.after {u v : Evaluated σ} {s : σ} (hu : u.Observes s)
    (hv : v.Observes s) : (v.after u.calls).Observes s where
  state := hv.state
  reads := List.forall_mem_append.mpr ⟨hu.reads, hv.reads⟩

mutual

/-- An operand without moves has a value, and evaluating it only reads. -/
theorem Operand.observes {n : Node} (ho : Operand n) (hpure : env.Pure) (hn : n.acts = false)
    (s : σ) : ∃ u, n.eval env s = some u ∧ u.Observes s := by
  cases ho with
  | leaf l =>
      cases l with
      | move v =>
          rw [Node.acts_move] at hn
          cases hn
      | sense x =>
          refine ⟨_, Leaf.eval_node env s (.sense x), hpure x s, ?_⟩
          simp [Leaf.eval, Call.action?]
  | program hp => exact hp.observes hpure hn s

theorem Program.observes {a : Form} (hp : Program a) (hpure : env.Pure)
    (ha : (Node.form a).acts = false) (s : σ) :
    ∃ u, (Node.form a).eval env s = some u ∧ u.Observes s := by
  have hns : ∀ n ∈ a.operands, n.acts = false := fun n hn =>
    Node.acts_of_mem ha (List.mem_of_mem_tail hn)
  cases hp with
  | eq hx hy =>
      obtain ⟨u, hu, hou⟩ := hx.observes hpure (hns _ (by simp [Form.eq])) s
      obtain ⟨v, hv, hov⟩ := hy.observes hpure (hns _ (by simp [Form.eq])) s
      refine ⟨(v.after u.calls).withValue (if u.value = v.value then 1 else 0), ?_,
        ⟨hov.state, (hou.after hov).reads⟩⟩
      rw [Form.eval_eq, hu, Option.bind_some, hou.state, hv, Option.bind_some]
  | prog2 hx hy =>
      obtain ⟨u, hu, hou⟩ := hx.observes hpure (hns _ (by simp [Form.prog2])) s
      obtain ⟨v, hv, hov⟩ := hy.observes hpure (hns _ (by simp [Form.prog2])) s
      refine ⟨v.after u.calls, ?_, hou.after hov⟩
      rw [Form.eval_prog2, hu, Option.bind_some, hou.state, hv, Option.bind_some]
  | ifElse hx hy hz =>
      obtain ⟨u, hu, hou⟩ := hx.observes hpure (hns _ (by simp [Form.ifElse])) s
      rw [Form.eval_ifElse, hu, Option.bind_some, hou.state]
      by_cases hzero : u.value = 0
      · obtain ⟨v, hv, hov⟩ := hz.observes hpure (hns _ (by simp [Form.ifElse])) s
        exact ⟨v.after u.calls, by simp [hzero, hv], hou.after hov⟩
      · obtain ⟨v, hv, hov⟩ := hy.observes hpure (hns _ (by simp [Form.ifElse])) s
        exact ⟨v.after u.calls, by simp [hzero, hv], hou.after hov⟩
  | prog3 hx hy hz =>
      obtain ⟨u, hu, hou⟩ := hx.observes hpure (hns _ (by simp [Form.prog3])) s
      obtain ⟨v, hv, hov⟩ := hy.observes hpure (hns _ (by simp [Form.prog3])) s
      obtain ⟨w, hw, how⟩ := hz.observes hpure (hns _ (by simp [Form.prog3])) s
      refine ⟨(w.after v.calls).after u.calls, ?_, hou.after (hov.after how)⟩
      rw [Form.eval_prog3, hu, Option.bind_some, hou.state, hv, Option.bind_some, hov.state, hw,
        Option.bind_some]

end

/-! ## The frame of the program goes forward -/

/-- The frame `g` has come as far as `f` or further, and has kept what `f` had. -/
structure Frame.Precedes (f g : Frame) : Prop where
  scope : g.scope = f.scope
  progress : f.progress ≤ g.progress
  slot : ∀ j, 1 ≤ j → j ≤ f.progress → g.slot j = f.slot j

namespace Frame

variable {f g h : Frame} {c : Control} {k : Nat} {v : Value}

theorem Precedes.refl (f : Frame) : f.Precedes f := ⟨rfl, Nat.le_refl _, fun _ _ _ => rfl⟩

theorem Precedes.trans (hfg : f.Precedes g) (hgh : g.Precedes h) : f.Precedes h where
  scope := hgh.scope.trans hfg.scope
  progress := Nat.le_trans hfg.progress hgh.progress
  slot j h1 hj := (hgh.slot j h1 (Nat.le_trans hj hfg.progress)).trans (hfg.slot j h1 hj)

theorem At.precedes_fill (hat : f.At c k) (hf : f.Coherent) : f.Precedes (f.fill k v) where
  scope := rfl
  progress := by
    have hprogress : (f.fill k v).progress = k :=
      At.progress_passed (f := f.store k v) (hat.range hf).2
    rw [hprogress, hat.progress_eq]
    exact Nat.sub_le k 1
  slot j h1 hj := by
    rw [hat.progress_eq] at hj
    exact slot_store_ne (by omega)

theorem precedes_finishWith (hcur : f.cursor = .resolving) : f.Precedes (f.finishWith v) where
  scope := rfl
  progress := by
    unfold progress
    rw [hcur]
    exact Nat.le_refl _
  slot j h1 _ := slot_store_ne (by omega)

end Frame

/-- What goes forward in the innermost frame goes forward in the outermost one. -/
theorem Stack.getLast?_precedes {f g root : Frame} {below : Stack Frame} (hfg : f.Precedes g)
    (hroot : (f :: below).getLast? = some root) :
    ∃ root', (g :: below).getLast? = some root' ∧ root.Precedes root' := by
  cases below with
  | nil =>
      obtain rfl : f = root := by simpa using hroot
      exact ⟨g, rfl, hfg⟩
  | cons _ _ =>
      rw [List.getLast?_cons_cons] at hroot ⊢
      exact ⟨root, hroot, .refl root⟩

/-- A step inside a round takes the outermost frame forward, or leaves it as it is. -/
theorem Rule.outermost_precedes {stack stack' : Stack Frame} {s s' : σ} {e : Event}
    (hr : Rule env program stack s e stack' s') (hc : stack.Coherent program)
    (he : e.endsRound = false) {root : Frame} (hroot : stack.getLast? = some root) :
    ∃ root', stack'.getLast? = some root' ∧ root.Precedes root' := by
  cases hr with
  | start => cases hroot
  | enter => exact ⟨root, by rwa [List.getLast?_cons_cons], .refl root⟩
  | act hat => exact Stack.getLast?_precedes (hat.precedes_fill hc.top) hroot
  | observe hat => exact Stack.getLast?_precedes (hat.precedes_fill hc.top) hroot
  | skip hat =>
      rw [hat.passed_eq_fill hc.top]
      exact Stack.getLast?_precedes (hat.precedes_fill hc.top) hroot
  | resolve hcur => exact Stack.getLast?_precedes (Frame.precedes_finishWith hcur) hroot
  | handBack =>
      obtain ⟨c, k, hat, -⟩ := (List.isChain_cons_cons.mp hc.nested).1
      rw [List.getLast?_cons_cons] at hroot
      rw [hat.operandNumber_eq]
      exact Stack.getLast?_precedes (hat.precedes_fill hc.tail.top) hroot
  | round => cases he

theorem Machine.Steps.outermost_precedes {m m' : Machine σ} {ts : List Transition}
    (h : Steps env m ts m') (hc : m.stack.Coherent m.program)
    (hts : ∀ t ∈ ts, t.event.endsRound = false) {root : Frame}
    (hroot : m.stack.getLast? = some root) :
    ∃ root', m'.stack.getLast? = some root' ∧ root.Precedes root' := by
  induction h generalizing root with
  | refl => exact ⟨root, hroot, .refl root⟩
  | step hs _ ih =>
      obtain ⟨hfirst, hrest⟩ := List.forall_mem_cons.mp hts
      obtain ⟨mid, hmid, hforward⟩ := (rule_of_step hs).1.outermost_precedes hc hfirst hroot
      obtain ⟨root', hroot', hforward'⟩ := ih (coherent_of_step hs hc) hrest hmid
      exact ⟨root', hroot', hforward.trans hforward'⟩

/-! ## Leaving an operand out -/

/-- The outermost frame is at operand `k`, and the next step is about that operand. -/
def Stack.Within (stack : Stack Frame) (k : Nat) : Prop :=
  ∃ root, stack.getLast? = some root ∧ root.cursor = .operand k

/-- Nothing of operand `k` of the program, the tree `n`, is evaluated in these steps: whenever
the cursor comes to it, no other frame is pending and the next step leaves it out. -/
def LeavesOut (k : Nat) (n : Node) (ts : List Transition) : Prop :=
  ts.IsChain fun t t' => t.pending.Within k → t.pending.length = 1 ∧ t'.event = .skip n

theorem LeavesOut.append {k : Nat} {n : Node} {ts ts' : List Transition}
    (hts : ∀ t ∈ ts, ¬ t.pending.Within k) (h : LeavesOut k n ts') : LeavesOut k n (ts ++ ts') := by
  induction ts with
  | nil => exact h
  | cons t ts ih =>
      obtain ⟨ht, hrest⟩ := List.forall_mem_cons.mp hts
      exact List.isChain_cons.mpr ⟨fun _ _ hwithin => absurd hwithin ht, ih hrest⟩

/-- The outermost frame is the only one, or waits for the result of another. -/
theorem Stack.Coherent.singleton_or_hosts {stack : Stack Frame} {root : Frame}
    (hc : stack.Coherent program) (hroot : stack.getLast? = some root) :
    stack = [root] ∨ ∃ a, root.Hosts a := by
  match stack with
  | [] => cases hroot
  | [f] =>
      obtain rfl : f = root := by simpa using hroot
      exact .inl rfl
  | inner :: outer :: below =>
      rw [List.getLast?_cons_cons] at hroot
      rcases hc.tail.singleton_or_hosts hroot with hsingle | hosts
      · obtain ⟨rfl, rfl⟩ := List.cons.inj hsingle
        exact .inr ⟨_, (List.isChain_cons_cons.mp hc.nested).1⟩
      · exact .inr hosts

/-- The first operand has been passed and its value is not zero, so a choice takes the second. -/
structure Frame.ChoseSecond (f : Frame) : Prop where
  progress : 1 ≤ f.progress
  value : ∃ n, f.slot 1 = some n ∧ n ≠ 0

theorem Frame.ChoseSecond.later {f g : Frame} (hf : f.ChoseSecond) (h : f.Precedes g) :
    g.ChoseSecond where
  progress := Nat.le_trans hf.progress h.progress
  value := by
    rw [h.slot 1 (Nat.le_refl 1) hf.progress]
    exact hf.value

theorem Frame.ChoseSecond.not_takes {f : Frame} (hf : f.ChoseSecond) :
    f.takes .ifElse 3 = false := by
  obtain ⟨n, hn, hne⟩ := hf.value
  simp [Frame.takes, hn, Value.truthy, hne]

section Choice

variable {x y z : Node} {stack stack' : Stack Frame} {s s' : σ} {e : Event} {root : Frame}

/-- A choice that took its second operand leaves the third out. -/
theorem Rule.skips_third (hr : Rule env (Form.ifElse x y z) stack s e stack' s')
    (hc : stack.Coherent (Form.ifElse x y z)) (hroot : stack.getLast? = some root)
    (hchose : root.ChoseSecond) (hcur : root.cursor = .operand 3) :
    stack.length = 1 ∧ e = .skip z := by
  have hscope : root.scope = Form.ifElse x y z := hc.outermost root hroot
  have hcontrol : root.control = .ok .ifElse := by
    rw [Frame.control_eq_ok_iff, hscope]
    exact ⟨Form.control_ofControl _ _, rfl⟩
  -- An operand that is taken at the cursor would be the third.
  have hnot : ∀ c k, root.At c k → root.takes c k = true → False := by
    intro c k hat htakes
    obtain rfl : 3 = k := by simpa using hcur.symm.trans hat.cursor
    obtain rfl : .ifElse = c := by simpa using hcontrol.symm.trans hat.control
    rw [hchose.not_takes] at htakes
    cases htakes
  rcases hc.singleton_or_hosts hroot with rfl | ⟨a, c, k, hat, htakes, -⟩
  case inr => exact (hnot _ _ hat htakes).elim
  refine ⟨rfl, ?_⟩
  cases hr with
  | enter hat htakes => exact (hnot _ _ hat htakes).elim
  | act hat htakes => exact (hnot _ _ hat htakes).elim
  | observe hat htakes => exact (hnot _ _ hat htakes).elim
  | skip hat =>
      obtain rfl : 3 = _ := by simpa using hcur.symm.trans hat.cursor
      rw [hscope]
      rfl
  | resolve hcur' =>
      rw [hcur] at hcur'
      cases hcur'
  | round hcur' =>
      rw [hcur] at hcur'
      cases hcur'

end Choice

namespace Machine.Steps

variable {m m' : Machine σ} {last : Transition} {ts : List Transition} {root : Frame}

/-- Steps do not get to an operand behind the one at which they end. -/
theorem not_within (h : Steps env m ts m') (hc : m.stack.Coherent m.program)
    (hts : ∀ t ∈ ts, t.event.endsRound = false) (hroot : m'.stack.getLast? = some root) {k : Nat}
    (hk : root.progress + 1 < k) : ∀ t ∈ ts, ¬ t.pending.Within k := by
  induction h with
  | refl => exact List.forall_mem_nil _
  | step hs hrest ih =>
      obtain ⟨-, hts⟩ := List.forall_mem_cons.mp hts
      have hc := coherent_of_step hs hc
      refine List.forall_mem_cons.mpr ⟨?_, ih hc hts hroot⟩
      -- At operand `k` the frame would have come further than it has at the end.
      rintro ⟨f, hf, hcur⟩
      rw [(rule_of_step hs).2.2] at hf
      obtain ⟨root', hroot', hforward⟩ := hrest.outermost_precedes hc hts hf
      obtain rfl : root' = root := by simpa using hroot'.symm.trans hroot
      have hprogress : f.progress = k - 1 := by
        unfold Frame.progress
        rw [hcur]
      have hle := hforward.progress
      omega

/-- Once a choice took its second operand, the third is left out. -/
theorem leavesOut {x y z : Node} (h : Steps env m (ts ++ [last]) m')
    (hprogram : m.program = Form.ifElse x y z) (hc : m.stack.Coherent m.program)
    (hts : ∀ t ∈ ts, t.event.endsRound = false) (hroot : m.stack.getLast? = some root)
    (hchose : root.ChoseSecond) : LeavesOut 3 z (ts ++ [last]) := by
  induction ts generalizing m root with
  | nil => exact .singleton last
  | cons t ts ih =>
      obtain ⟨ht, hts⟩ := List.forall_mem_cons.mp hts
      cases h with
      | @step _ m₁ _ _ _ hs hrest =>
          obtain ⟨hr, -, hpending⟩ := rule_of_step hs
          obtain ⟨root', hroot', hforward⟩ := hr.outermost_precedes hc ht hroot
          have hc' := coherent_of_step hs hc
          have hprogram' := (program_of_step hs).trans hprogram
          have hchose' := hchose.later hforward
          refine List.isChain_cons.mpr ⟨?_, ih hrest hprogram' hc' hts hroot' hchose'⟩
          -- The step after `t` is the first of the remaining ones.
          rintro next hnext ⟨f, hf, hcur⟩
          obtain ⟨later, hlater⟩ := List.head?_eq_some_iff.mp hnext
          rw [hlater] at hrest
          rw [hpending] at hf ⊢
          obtain rfl : root' = f := by simpa using hroot'.symm.trans hf
          cases hrest with
          | step hs' _ =>
              have hr' := (rule_of_step hs').1
              rw [hprogram'] at hr' hc'
              exact hr'.skips_third hc' hf hchose' hcur

end Machine.Steps

/-! ## The round -/

/-- An evaluation is made in steps of a machine, and none of them ends the round. -/
theorem Evaluates.steps {stack stack' : Stack Frame} {s s' : σ} {calls : List Call}
    (h : Evaluates env program stack s calls stack' s') (before : List Call) (stats : Stats) :
    ∃ ts stats', Machine.Steps env.overheard ⟨program, ⟨s, before⟩, stack, stats⟩ ts
        ⟨program, ⟨s', before ++ calls⟩, stack', stats'⟩ ∧
      ∀ t ∈ ts, t.event.endsRound = false := by
  obtain ⟨es, hes, hrun⟩ := h
  let m : Machine (Overheard σ) := ⟨program, ⟨s, before⟩, stack, stats⟩
  obtain ⟨ts, hts, rfl⟩ := Machine.steps_of_runs (m := m) (hrun before)
  exact ⟨ts, _, hts, List.forall_mem_map.mp hes⟩

theorem Rule.steps {stack stack' : Stack Frame} {s s' : σ} {e : Event}
    (h : Rule env program stack s e stack' s') (stats : Stats) :
    ∃ t stats', Machine.Steps env ⟨program, s, stack, stats⟩ [t] ⟨program, s', stack', stats'⟩ ∧
      t.event = e ∧ t.pending = stack' := by
  let m : Machine σ := ⟨program, s, stack, stats⟩
  obtain ⟨context, hstep⟩ := Machine.step_of_rule (m := m) h
  exact ⟨_, _, .step hstep .refl, rfl, rfl⟩

/-! ## Comparing an observation with itself -/

/-- The frame of a comparison of `e` with itself, when both operands have the value `v`. -/
def Frame.compared (e : Node) (v : Int64) : Frame :=
  ⟨Form.eq e e, .resolving, [none, some v, some v]⟩

/-- The frame of a choice whose condition has the value `n`. -/
def Frame.choosing (cond yes no : Node) (n : Int64) : Frame :=
  ⟨Form.ifElse cond yes no, .operand 2, [none, some n, none, none]⟩

section Round

variable {e a : Node} {s : σ}

theorem Frame.compared_resolve (v : Int64) (below : Stack Frame) (s : σ) :
    Rule env program (compared e v :: below) s (.resolve (Form.eq e e) (some 1))
      ((compared e v).finishWith (some 1) :: below) s := by
  have hc : (compared e v).control = .ok .eq :=
    control_eq_ok_iff.mpr ⟨Form.control_ofControl _ _, rfl⟩
  have hone : (compared e v).resolved .eq = some 1 := by
    simp [compared, resolved, slot, Value.ofBool]
  rw [← hone]
  exact .resolve rfl hc

/-- Both copies of an observation are evaluated to the same value, in the same state of the
game. -/
theorem Operand.evaluates_compared {u : Evaluated σ} (he : Operand e)
    (hu : e.eval env s = some u) (hobs : u.Observes s) (program : Form) (below : Stack Frame) :
    Evaluates env program (.enter (Form.eq e e) :: below) s (u.calls ++ u.calls)
      (.compared e u.value :: below) s := by
  -- The operand has the same meaning each time, as it is evaluated in the same state.
  have hcopy : ∀ {f : Frame} {c k}, f.At c k → f.takes c k = true →
      f.scope.operand? k = some e →
      Evaluates env program (f :: below) s u.calls (f.fill k (some u.value) :: below) s := by
    intro f c k hat htakes hn
    obtain ⟨v, hv, hrun⟩ : ∃ v, e.eval env s = some v ∧
        Evaluates env program (f :: below) s v.calls (f.fill k (some v.value) :: below) v.state :=
      he.evaluates hat htakes hn below s
    obtain rfl : u = v := by simpa using hu.symm.trans hv
    rwa [hobs.state] at hrun
  have hfirst := hcopy (f := .enter (Form.eq e e)) (Frame.at_ofControl _ _ rfl 1) rfl rfl
  have hsecond := hcopy (f := ⟨Form.eq e e, .operand 2, [none, some u.value, none]⟩)
    (Frame.at_ofControl _ _ rfl 2) rfl rfl
  exact hfirst.trans hsecond

/-- A round that begins with the comparison of an observation with itself.  The comparison is
resolved to one, and the choice around it gets that value. -/
theorem Operand.steps_compared {u : Evaluated σ} (he : Operand e) (hu : e.eval env s = some u)
    (hobs : u.Observes s) (a b : Node) (stats : Stats) :
    let cond := Node.form (Form.eq e e)
    ∃ (comparing : List Transition) (resolved handed : Transition) (stats' : Stats),
      Machine.Steps env.overheard ⟨Form.ifElse cond a b, ⟨s, []⟩, [], stats⟩
        (comparing ++ [resolved, handed])
        ⟨Form.ifElse cond a b, ⟨s, u.calls ++ u.calls⟩, [.choosing cond a b 1], stats'⟩ ∧
      (∀ t ∈ comparing ++ [resolved, handed], t.event.endsRound = false) ∧
      resolved.event = .resolve (Form.eq e e) (some 1) ∧
      resolved.pending.length = 2 ∧ resolved.pending.Within 1 := by
  intro cond
  let program := Form.ifElse cond a b
  have hstart : Evaluates env program [] s [] [.enter program] s :=
    .silent (e := .start program) rfl (fun _ => .start) s
  have henter : Evaluates env program [.enter program] s []
      [.enter (Form.eq e e), .enter program] s :=
    Frame.At.evaluates_enter env program [] s
      (Frame.at_ofControl (c := .ifElse) [cond, a, b] _ rfl 1) rfl rfl
  have hcompared := he.evaluates_compared hu hobs program [.enter program]
  obtain ⟨comparing, stats₁, hcomparing, hinside⟩ :=
    ((hstart.trans henter).trans hcompared).steps [] stats
  -- Two more steps, one of which has the event that is asked for.
  let o : Overheard σ := ⟨s, u.calls ++ u.calls⟩
  have hresolve : Rule env.overheard program [.compared e u.value, .enter program] o
      (.resolve (Form.eq e e) (some 1))
      [(Frame.compared e u.value).finishWith (some 1), .enter program] o :=
    Frame.compared_resolve u.value [.enter program] o
  have hhand : Rule env.overheard program
      [(Frame.compared e u.value).finishWith (some 1), .enter program] o
      (.handBack (Form.eq e e) (some 1)) [.choosing cond a b 1] o := .handBack rfl
  obtain ⟨resolved, stats₂, hresolved, hevent, hpending⟩ := hresolve.steps stats₁
  obtain ⟨handed, stats₃, hhanded, hevent', -⟩ := hhand.steps stats₂
  refine ⟨comparing, resolved, handed, stats₃, ?_, ?_, hevent, ?_, ?_⟩
  · exact hcomparing.trans (hresolved.trans hhanded)
  · simpa [or_imp, forall_and, hevent, hevent', Event.endsRound] using hinside
  · rw [hpending]
    rfl
  · rw [hpending]
    exact ⟨.enter program, rfl, rfl⟩

/-- A choice whose condition is nonzero evaluates its second operand and ends the round with
the value of that. -/
theorem Operand.steps_chosen (ha : Operand a) (x z : Node) {n : Int64} (hn : n ≠ 0)
    (env : Environment σ) (s : σ) (before : List Call) (stats : Stats) :
    ∃ (u : Evaluated σ) (ok : Bool) (s' : σ) (choosing : List Transition) (last : Transition)
      (stats' : Stats),
      a.eval env s = some u ∧ env.advance .none u.state = (ok, s') ∧
      Machine.Steps env.overheard
        ⟨Form.ifElse x a z, ⟨s, before⟩, [.choosing x a z n], stats⟩ (choosing ++ [last])
        ⟨Form.ifElse x a z, ⟨s', before ++ u.calls ++ [.advance .none ok]⟩, [], stats'⟩ ∧
      (∀ t ∈ choosing, t.event.endsRound = false) ∧
      last.event = .round (Form.ifElse x a z) (some u.value) := by
  let program := Form.ifElse x a z
  obtain ⟨u, hu, hsecond⟩ : ∃ u, a.eval env s = some u ∧
      Evaluates env program [.choosing x a z n] s u.calls
        [(Frame.choosing x a z n).fill 2 (some u.value)] u.state :=
    ha.evaluates (Frame.at_ofControl _ _ rfl 2)
      (by simp [Frame.takes, Frame.slot, Value.truthy, hn]) rfl [] s
  obtain ⟨g, hg, hthird⟩ :=
    Frame.evaluates_third_skipped env program [] u.state x a z hn u.value
  obtain ⟨choosing, stats₁, hchoosing, hinside⟩ := (hsecond.trans hthird).steps before stats
  rw [List.append_nil] at hchoosing
  obtain ⟨ok, s', hadv, hround⟩ := hg.round env program u.state (before ++ u.calls)
  obtain ⟨last, stats₂, hlast, hevent, -⟩ := hround.steps stats₁
  exact ⟨u, ok, s', choosing, last, stats₂, hu, hadv, hchoosing.trans hlast, hinside, hevent⟩

end Round

/-- A choice that compares an observation with itself takes its second operand.

The tree `e` makes no move and reading is pure, so the comparison, right above the frame of the
program, is resolved to one.  Nothing of `b` is evaluated, which may be any tree.  Apart from
what the two copies of `e` read, the round asks of the game what `a` asks in the state at the
start, and then lets one tick pass in which nothing is done. -/
theorem Machine.round_of_self_equality (hpure : env.Pure) {e a b : Node} (he : Operand e)
    (hacts : e.acts = false) (ha : Operand a) (m : Machine σ)
    (hprogram : m.program = Form.ifElse (.form (Form.eq e e)) a b) (hstack : m.stack = []) :
    ∃ (u x : Evaluated σ) (ok : Bool) (comparing : List Transition) (resolved : Transition)
      (choosing : List Transition) (last : Transition) (m' : Machine σ),
      e.eval env m.state = some u ∧ (∀ c ∈ u.calls, c.action? = none) ∧
      a.eval env m.state = some x ∧ env.advance .none x.state = (ok, m'.state) ∧
      Steps env m (comparing ++ resolved :: choosing ++ [last]) m' ∧
      Steps env.overheard (m.overhearing []) (comparing ++ resolved :: choosing ++ [last])
        (m'.overhearing (u.calls ++ u.calls ++ x.calls ++ [.advance .none ok])) ∧
      m'.stack = [] ∧ (∀ t ∈ comparing ++ resolved :: choosing, t.pending ≠ []) ∧
      resolved.event = .resolve (Form.eq e e) (some 1) ∧
      resolved.pending.length = 2 ∧ resolved.pending.Within 1 ∧
      last.event = .round m.program (some x.value) ∧
      LeavesOut 3 b (comparing ++ resolved :: choosing ++ [last]) := by
  obtain ⟨program, s, stack, stats⟩ := m
  obtain rfl : stack = [] := hstack
  obtain rfl : program = Form.ifElse (.form (Form.eq e e)) a b := hprogram
  obtain ⟨u, hu, hobs⟩ := he.observes hpure hacts s
  obtain ⟨comparing, resolved, handed, stats₁, hfirst, hinside, hevent, hlength, hwithin⟩ :=
    he.steps_compared hu hobs a b stats
  obtain ⟨x, ok, s', choosing, last, stats₂, hx, hadv, hsecond, hinside', hlast⟩ :=
    ha.steps_chosen (.form (Form.eq e e)) b (n := 1) (by decide) env s (u.calls ++ u.calls) stats₁
  have hroot : [Frame.choosing (.form (Form.eq e e)) a b 1].getLast? =
      some (.choosing (.form (Form.eq e e)) a b 1) := rfl
  -- Before the choice has its condition the cursor is not at the third operand yet.
  have hout : LeavesOut 3 b (comparing ++ [resolved, handed] ++ (choosing ++ [last])) := by
    refine .append (hfirst.not_within .empty hinside hroot (Nat.lt_succ_self 2)) ?_
    exact hsecond.leavesOut rfl (hfirst.coherent .empty) hinside' hroot
      ⟨Nat.le_refl 1, 1, rfl, by decide⟩
  have hlist : comparing ++ [resolved, handed] ++ (choosing ++ [last]) =
      comparing ++ resolved :: (handed :: choosing) ++ [last] := by simp
  have hall := hfirst.trans hsecond
  rw [hlist] at hout hall
  have hinround : ∀ t ∈ comparing ++ resolved :: (handed :: choosing),
      t.event.endsRound = false := by
    simpa using List.forall_mem_append.mpr ⟨hinside, hinside'⟩
  obtain ⟨_, hround, -⟩ := hall.split
  exact ⟨u, x, ok, comparing, resolved, handed :: choosing, last,
    ⟨Form.ifElse (.form (Form.eq e e)) a b, s', [], stats₂⟩, hu, hobs.reads, hx, hadv,
    hall.mapState env.overheard_covers, hall, rfl, hround.pending_ne_nil hinround, hevent, hlength,
    hwithin, hlast, hout⟩

/-- The vertical distance, or whether the two distances agree if the horizontal one is zero. -/
def gauge : Node :=
  .form (Form.ifElse (Leaf.sense .distX).node (Leaf.sense .distY).node
    (.form (Form.eq (Leaf.sense .distX).node (Leaf.sense .distY).node)))

theorem gauge_operand : Operand gauge :=
  .program (.ifElse (.leaf _) (.leaf _) (.program (.eq (.leaf _) (.leaf _))))

/-- A duel in which the alien is straight above the ship. -/
def Duel.facing : Duel where
  board := .standard
  source := .seeded 1
  ship := 5
  alienX := 5
  alienY := 0
  heading := 1
  ticks := 0
  finished := false
  won := false

theorem eval_gauge : gauge.eval invaders Duel.facing =
    some ⟨0, .facing, [.read .distX 0, .read .distX 0, .read .distY 7]⟩ := by
  simp only [gauge, Form.eval_ifElse, Form.eval_eq, Leaf.eval_node]
  rfl

/-- Both copies of the gauge read the same, so the ship shoots, and the duel is won before the
tick in which nothing is done. -/
theorem Machine.round_of_gauge :
    let m := Machine.new (Form.ifElse (.form (Form.eq gauge gauge)) (Leaf.move .shoot).node
      (Leaf.move .left).node) Duel.facing
    ∃ (comparing : List Transition) (resolved : Transition) (choosing : List Transition)
      (last : Transition) (m' : Machine Duel),
      Steps invaders m (comparing ++ resolved :: choosing ++ [last]) m' ∧
      Steps invaders.overheard (m.overhearing []) (comparing ++ resolved :: choosing ++ [last])
        (m'.overhearing [.read .distX 0, .read .distX 0, .read .distY 7,
          .read .distX 0, .read .distX 0, .read .distY 7,
          .advance (.move .shoot) true, .advance .none false]) ∧
      m'.stack = [] ∧ resolved.event = .resolve (Form.eq gauge gauge) (some 1) ∧
      LeavesOut 3 (Leaf.move .left).node (comparing ++ resolved :: choosing ++ [last]) := by
  intro m
  obtain ⟨u, x, ok, comparing, resolved, choosing, last, m', hu, -, hx, hadv, hsteps, hall,
      hstack, -, hevent, -, -, -, hout⟩ :=
    Machine.round_of_self_equality invaders_pure gauge_operand (by decide) (.leaf (.move .shoot)) m
      rfl rfl
  obtain rfl := Option.some.inj (eval_gauge.symm.trans hu)
  obtain rfl := Option.some.inj ((Leaf.eval_node invaders Duel.facing _).symm.trans hx)
  cases (congrArg Prod.fst hadv : false = ok)
  exact ⟨comparing, resolved, choosing, last, m', hsteps, hall, hstack, hevent, hout⟩

end Stepwise
