import Stepwise.Game.Scripted
import Stepwise.Proofs.Machine.Overhearing
import Stepwise.Proofs.Machine.Slots

/-!
# Stepping does what the program means

The meaning of a program is a recursion over its tree (`Node.eval`), and the machine has
unfolded that recursion into frames.  The two agree for a whole round.  The machine asks
of the game what the meaning asks, in the same order and with the same answers, and then
lets one tick pass (`Machine.round_refines_eval`).

The induction is over the shapes of a program.  It has to speak of a program in the
middle of an evaluation: with any frames below, in any state of the game.  So the
statement about an operand is that the frame at whose cursor it stands goes on to the next
operand with the operand's value in its slot (`Operand.evaluates`), and the statement
about a form is that its new frame is finished in the end with the form's value
(`Program.evaluates`).  What is asked of the game on the way is added to what was
overheard before, whatever that was.
-/

namespace Stepwise

variable {σ : Type} {env : Environment σ} {program : Form}

/-! ## The meaning of the shapes of a program -/

section Meaning

variable (env : Environment σ) (s : σ)

theorem Leaf.eval_node (l : Leaf) : l.node.eval env s = some (l.eval env s) := by
  have h : Op.ofName? l.name = some (.leaf l) := Op.ofName?_name (.leaf l)
  rw [Leaf.node, Node.eval, h]

theorem Form.eval_eq (a b : Node) :
    (Node.form (Form.eq a b)).eval env s =
      (a.eval env s).bind fun x => (b.eval env x.state).bind fun y =>
        some ((y.after x.calls).withValue (if x.value = y.value then 1 else 0)) := by
  have h : Op.ofName? Control.eq.name = some (.control .eq) := Op.ofName?_name (.control .eq)
  rw [Form.eq, Form.ofControl, Node.eval, h]
  rfl

theorem Form.eval_prog2 (a b : Node) :
    (Node.form (Form.prog2 a b)).eval env s =
      (a.eval env s).bind fun x => (b.eval env x.state).bind fun y =>
        some (y.after x.calls) := by
  have h : Op.ofName? Control.prog2.name = some (.control .prog2) :=
    Op.ofName?_name (.control .prog2)
  rw [Form.prog2, Form.ofControl, Node.eval, h]
  rfl

theorem Form.eval_ifElse (c t e : Node) :
    (Node.form (Form.ifElse c t e)).eval env s =
      (c.eval env s).bind fun x =>
        (if x.value ≠ 0 then t.eval env x.state else e.eval env x.state).bind fun y =>
          some (y.after x.calls) := by
  have h : Op.ofName? Control.ifElse.name = some (.control .ifElse) :=
    Op.ofName?_name (.control .ifElse)
  rw [Form.ifElse, Form.ofControl, Node.eval, h]
  -- The binding of the chosen operand stands inside the choice there, and around it here.
  cases c.eval env s with
  | none => rfl
  | some x =>
      by_cases hx : x.value = 0
      · simp [hx]
      · simp [hx]

theorem Form.eval_prog3 (a b c : Node) :
    (Node.form (Form.prog3 a b c)).eval env s =
      (a.eval env s).bind fun x => (b.eval env x.state).bind fun y =>
        (c.eval env y.state).bind fun z => some ((z.after y.calls).after x.calls) := by
  have h : Op.ofName? Control.prog3.name = some (.control .prog3) :=
    Op.ofName?_name (.control .prog3)
  rw [Form.prog3, Form.ofControl, Node.eval, h]
  rfl

end Meaning

/-! ## Evaluations -/

/-- Is this the tick in which nothing is done? -/
def Event.endsRound : Event → Bool
  | .round .. => true
  | _ => false

/-- From the frames `stack` and the game in state `s`, a run inside a round leads to
`stack'` and `s'` and asks `calls` of the game on the way. -/
def Evaluates (env : Environment σ) (program : Form) (stack : Stack Frame) (s : σ)
    (calls : List Call) (stack' : Stack Frame) (s' : σ) : Prop :=
  ∃ es : List Event, (∀ e ∈ es, e.endsRound = false) ∧
    ∀ before, Runs env.overheard program stack ⟨s, before⟩ es stack' ⟨s', before ++ calls⟩

namespace Evaluates

variable {stack₁ stack₂ stack₃ : Stack Frame} {s₁ s₂ s₃ : σ} {calls calls' : List Call}

theorem trans (h : Evaluates env program stack₁ s₁ calls stack₂ s₂)
    (h' : Evaluates env program stack₂ s₂ calls' stack₃ s₃) :
    Evaluates env program stack₁ s₁ (calls ++ calls') stack₃ s₃ := by
  obtain ⟨es, hes, hrun⟩ := h
  obtain ⟨es', hes', hrun'⟩ := h'
  refine ⟨es ++ es', ?_, fun before => ?_⟩
  · intro e he
    rcases List.mem_append.mp he with he | he
    · exact hes e he
    · exact hes' e he
  · have hrest := hrun' (before ++ calls)
    rw [List.append_assoc] at hrest
    exact (hrun before).trans hrest

/-- A rule inside a round that asks nothing of the game. -/
theorem silent {e : Event} (he : e.endsRound = false)
    (h : ∀ o : Overheard σ, Rule env.overheard program stack₁ o e stack₂ o) (s : σ) :
    Evaluates env program stack₁ s [] stack₂ s := by
  refine ⟨[e], by simpa using he, fun before => ?_⟩
  rw [List.append_nil]
  exact .one (h ⟨s, before⟩)

/-- An evaluation is a run of the game itself, when nobody listens. -/
theorem runs (h : Evaluates env program stack₁ s₁ calls stack₂ s₂) :
    ∃ es, Runs env program stack₁ s₁ es stack₂ s₂ := by
  obtain ⟨es, -, hrun⟩ := h
  exact ⟨es, (hrun []).mapState env.overheard_covers⟩

end Evaluates

section Frames

variable (env : Environment σ) (program : Form) {f g : Frame} {c : Control} {k : Nat}
  (below : Stack Frame) (s : σ)

/-- A leaf at the cursor is evaluated in one step. -/
theorem Leaf.evaluates (l : Leaf) (hat : f.At c k) (htakes : f.takes c k = true)
    (hn : f.scope.operand? k = some l.node) :
    Evaluates env program (f :: below) s (l.eval env s).calls
      (f.fill k (some (l.eval env s).value) :: below) (l.eval env s).state := by
  cases l with
  | move v =>
      refine ⟨[.act v (env.advance (.move v) s).1], by simp [Event.endsRound], fun before => ?_⟩
      exact .one (.act hat htakes hn rfl)
  | sense x =>
      refine ⟨[.observe x (env.read x s).1], by simp [Event.endsRound], fun before => ?_⟩
      refine .one (.observe hat htakes hn ?_)
      rw [Environment.overheard_read]
      rfl

theorem Frame.At.evaluates_skip (hat : f.At c k) (htakes : f.takes c k = false) :
    Evaluates env program (f :: below) s [] (f.passed k :: below) s :=
  .silent (e := .skip ((f.scope.operand? k).getD .missing)) rfl (fun _ => .skip hat htakes) s

theorem Frame.At.evaluates_enter {a : Form} (hat : f.At c k) (htakes : f.takes c k = true)
    (hn : f.scope.operand? k = some (.form a)) :
    Evaluates env program (f :: below) s [] (.enter a :: f :: below) s :=
  .silent (e := .enter a) rfl (fun _ => .enter hat htakes hn) s

/-- The frame is finished, with the value `v` of its form. -/
structure Frame.Finished (g : Frame) (a : Form) (v : Int64) : Prop where
  scope : g.scope = a
  cursor : g.cursor = .finished
  result : g.result = some v

theorem Frame.Finished.evaluates_handBack {a : Form} {v : Int64} (hg : g.Finished a v)
    (hat : f.At c k) :
    Evaluates env program (g :: f :: below) s [] (f.fill k (some v) :: below) s := by
  refine .silent (e := .handBack g.scope g.result) rfl (fun o => ?_) s
  have hrule : Rule env.overheard program (g :: f :: below) o (.handBack g.scope g.result)
      (f.fill f.operandNumber g.result :: below) o := .handBack hg.cursor
  rw [hat.operandNumber_eq] at hrule
  rw [← hg.result]
  exact hrule

/-- The finished frame of the program ends the round, and a tick passes in which nothing is
done. -/
theorem Frame.Finished.round {a : Form} {v : Int64} (hg : g.Finished a v) (calls : List Call) :
    ∃ ok s', env.advance .none s = (ok, s') ∧
      Rule env.overheard program [g] ⟨s, calls⟩ (.round a (some v)) []
        ⟨s', calls ++ [.advance .none ok]⟩ := by
  obtain ⟨ok, s', hadv⟩ : ∃ ok s', env.advance .none s = (ok, s') := ⟨_, _, rfl⟩
  refine ⟨ok, s', hadv, ?_⟩
  rw [← hg.scope, ← hg.result]
  refine .round hg.cursor (?_ : env.overheard.advance .none _ = (ok, _))
  rw [Environment.overheard_advance, hadv]

variable (ns : List Node) (slots : List Value) (h : ns.length = c.arity)

include h

theorem Frame.at_ofControl (k : Nat) : Frame.At ⟨Form.ofControl c ns, .operand k, slots⟩ c k where
  cursor := rfl
  control := Frame.control_eq_ok_iff.mpr ⟨Form.control_ofControl c ns, h⟩

/-- A form whose operands have been passed is resolved in one step. -/
theorem Frame.evaluates_resolve {v : Int64}
    (hv : Frame.resolved ⟨Form.ofControl c ns, .resolving, none :: slots⟩ c = some v) :
    ∃ g : Frame, g.Finished (Form.ofControl c ns) v ∧
      Evaluates env program (⟨Form.ofControl c ns, .resolving, none :: slots⟩ :: below) s []
        (g :: below) s := by
  have hc : Frame.control ⟨Form.ofControl c ns, .resolving, none :: slots⟩ = .ok c :=
    Frame.control_eq_ok_iff.mpr ⟨Form.control_ofControl c ns, h⟩
  refine ⟨Frame.finishWith ⟨Form.ofControl c ns, .resolving, none :: slots⟩ (some v),
    ⟨rfl, rfl, rfl⟩, ?_⟩
  refine .silent (e := .resolve (Form.ofControl c ns) (some v)) rfl (fun o => ?_) s
  rw [← hv]
  exact .resolve rfl hc

omit h in
/-- A choice that took its second operand leaves the third out and has the value of the
second. -/
theorem Frame.evaluates_third_skipped (x y z : Node) {n : Int64} (hn : n ≠ 0) (v : Int64) :
    ∃ g : Frame, g.Finished (Form.ifElse x y z) v ∧
      Evaluates env program
        (⟨Form.ifElse x y z, .operand 3, [none, some n, some v, none]⟩ :: below) s []
        (g :: below) s := by
  have hskip := (Frame.at_ofControl [x, y, z] [none, some n, some v, none]
    (c := .ifElse) rfl 3).evaluates_skip env program below s
    (by simp [Frame.takes, Frame.slot, Value.truthy, hn])
  obtain ⟨g, hg, hresolve⟩ := Frame.evaluates_resolve env program below s
    (c := .ifElse) [x, y, z] [some n, some v, none] rfl (v := v)
    (by simp [Frame.resolved, Frame.slot, Value.truthy, hn])
  exact ⟨g, hg, hskip.trans hresolve⟩

end Frames

mutual

/-- An operand of a program is evaluated to its meaning: the frame at whose cursor it
stands passes it and keeps its value. -/
theorem Operand.evaluates {n : Node} (ho : Operand n) {f : Frame} {c : Control} {k : Nat}
    (hat : f.At c k) (htakes : f.takes c k = true) (hn : f.scope.operand? k = some n)
    (below : Stack Frame) (s : σ) :
    ∃ e, n.eval env s = some e ∧
      Evaluates env program (f :: below) s e.calls (f.fill k (some e.value) :: below) e.state := by
  cases ho with
  | leaf l =>
      exact ⟨l.eval env s, l.eval_node env s, l.evaluates env program below s hat htakes hn⟩
  | @program a hp =>
      obtain ⟨e, g, heval, hg, hrun⟩ := hp.evaluates (f :: below) s
      refine ⟨e, heval, ?_⟩
      have henter := hat.evaluates_enter env program below s htakes hn
      have hback := hg.evaluates_handBack env program below e.state hat
      simpa using (henter.trans hrun).trans hback

/-- A program in a frame of its own is evaluated to its meaning, and then the frame is
finished with that value. -/
theorem Program.evaluates {a : Form} (hp : Program a) (below : Stack Frame) (s : σ) :
    ∃ e g, (Node.form a).eval env s = some e ∧ Frame.Finished g a e.value ∧
      Evaluates env program (.enter a :: below) s e.calls (g :: below) e.state := by
  cases hp with
  | @eq x y hx hy =>
      obtain ⟨u, hu, hrun₁⟩ := hx.evaluates (f := .enter (Form.eq x y))
        (Frame.at_ofControl _ _ rfl 1) rfl rfl below s
      obtain ⟨v, hv, hrun₂⟩ := hy.evaluates
        (f := ⟨Form.eq x y, .operand 2, [none, some u.value, none]⟩)
        (Frame.at_ofControl _ _ rfl 2) rfl rfl below u.state
      obtain ⟨g, hg, hrun₃⟩ := Frame.evaluates_resolve env program below v.state
        (c := .eq) [x, y] [some u.value, some v.value] rfl
        (v := if u.value = v.value then 1 else 0)
        (by simp [Frame.resolved, Frame.slot, Value.ofBool])
      refine ⟨(v.after u.calls).withValue (if u.value = v.value then 1 else 0), g, ?_, hg, ?_⟩
      · simp only [Form.eval_eq, hu, hv, Option.bind_some]
      · simpa [Evaluated.after, Evaluated.withValue] using (hrun₁.trans hrun₂).trans hrun₃
  | @prog2 x y hx hy =>
      obtain ⟨u, hu, hrun₁⟩ := hx.evaluates (f := .enter (Form.prog2 x y))
        (Frame.at_ofControl _ _ rfl 1) rfl rfl below s
      obtain ⟨v, hv, hrun₂⟩ := hy.evaluates
        (f := ⟨Form.prog2 x y, .operand 2, [none, some u.value, none]⟩)
        (Frame.at_ofControl _ _ rfl 2) rfl rfl below u.state
      obtain ⟨g, hg, hrun₃⟩ := Frame.evaluates_resolve env program below v.state
        (c := .prog2) [x, y] [some u.value, some v.value] rfl (v := v.value) rfl
      refine ⟨v.after u.calls, g, ?_, hg, ?_⟩
      · simp only [Form.eval_prog2, hu, hv, Option.bind_some]
      · simpa [Evaluated.after] using (hrun₁.trans hrun₂).trans hrun₃
  | @ifElse x y z hx hy hz =>
      obtain ⟨u, hu, hrun₁⟩ := hx.evaluates (f := .enter (Form.ifElse x y z))
        (Frame.at_ofControl _ _ rfl 1) rfl rfl below s
      by_cases hzero : u.value = 0
      · -- The second operand is left out, and the third is evaluated.
        have hskip := (Frame.at_ofControl [x, y, z] [none, some u.value, none, none]
          (c := .ifElse) rfl 2).evaluates_skip env program below u.state
          (by simp [Frame.takes, Frame.slot, Value.truthy, hzero])
        obtain ⟨v, hv, hrun₂⟩ := hz.evaluates
          (f := ⟨Form.ifElse x y z, .operand 3, [none, some u.value, none, none]⟩)
          (Frame.at_ofControl _ _ rfl 3) (by simp [Frame.takes, Frame.slot, Value.truthy, hzero])
          rfl below u.state
        obtain ⟨g, hg, hrun₃⟩ := Frame.evaluates_resolve env program below v.state
          (c := .ifElse) [x, y, z] [some u.value, none, some v.value] rfl (v := v.value)
          (by simp [Frame.resolved, Frame.slot, Value.truthy, hzero])
        refine ⟨v.after u.calls, g, ?_, hg, ?_⟩
        · simp only [Form.eval_ifElse, hu, hzero, hv, Option.bind_some, ne_eq, not_true_eq_false,
            if_false]
        · simpa [Evaluated.after] using ((hrun₁.trans hskip).trans hrun₂).trans hrun₃
      · -- The second operand is evaluated, and the third is left out.
        obtain ⟨v, hv, hrun₂⟩ := hy.evaluates
          (f := ⟨Form.ifElse x y z, .operand 2, [none, some u.value, none, none]⟩)
          (Frame.at_ofControl _ _ rfl 2) (by simp [Frame.takes, Frame.slot, Value.truthy, hzero])
          rfl below u.state
        obtain ⟨g, hg, hrun₃⟩ :=
          Frame.evaluates_third_skipped env program below v.state x y z hzero v.value
        refine ⟨v.after u.calls, g, ?_, hg, ?_⟩
        · simp only [Form.eval_ifElse, hu, hzero, hv, Option.bind_some, ne_eq, not_false_eq_true,
            if_true]
        · simpa [Evaluated.after] using (hrun₁.trans hrun₂).trans hrun₃
  | @prog3 x y z hx hy hz =>
      obtain ⟨u, hu, hrun₁⟩ := hx.evaluates (f := .enter (Form.prog3 x y z))
        (Frame.at_ofControl _ _ rfl 1) rfl rfl below s
      obtain ⟨v, hv, hrun₂⟩ := hy.evaluates
        (f := ⟨Form.prog3 x y z, .operand 2, [none, some u.value, none, none]⟩)
        (Frame.at_ofControl _ _ rfl 2) rfl rfl below u.state
      obtain ⟨w, hw, hrun₃⟩ := hz.evaluates
        (f := ⟨Form.prog3 x y z, .operand 3, [none, some u.value, some v.value, none]⟩)
        (Frame.at_ofControl _ _ rfl 3) rfl rfl below v.state
      obtain ⟨g, hg, hrun₄⟩ := Frame.evaluates_resolve env program below w.state
        (c := .prog3) [x, y, z] [some u.value, some v.value, some w.value] rfl (v := w.value) rfl
      refine ⟨(w.after v.calls).after u.calls, g, ?_, hg, ?_⟩
      · simp only [Form.eval_prog3, hu, hv, hw, Option.bind_some]
      · simpa [Evaluated.after] using ((hrun₁.trans hrun₂).trans hrun₃).trans hrun₄

end

/-! ## A whole round -/

theorem Rule.stack_ne_nil {stack stack' : Stack Frame} {s s' : σ} {e : Event}
    (h : Rule env program stack s e stack' s') (he : e.endsRound = false) : stack' ≠ [] := by
  cases h with
  | round => cases he
  | _ => exact List.cons_ne_nil _ _

namespace Machine.Steps

variable {m m' : Machine σ} {ts : List Transition}

/-- Inside a round there is always a frame. -/
theorem pending_ne_nil (h : Steps env m ts m') (hts : ∀ t ∈ ts, t.event.endsRound = false) :
    ∀ t ∈ ts, t.pending ≠ [] := by
  induction h with
  | refl =>
      intro t ht
      cases ht
  | step hs _ ih =>
      obtain ⟨hfirst, hrest⟩ := List.forall_mem_cons.mp hts
      obtain ⟨hr, -, hpending⟩ := rule_of_step hs
      rw [List.forall_mem_cons]
      exact ⟨hpending ▸ hr.stack_ne_nil hfirst, ih hrest⟩

end Machine.Steps

/-- Inside a round the game is told nothing but moves. -/
theorem none_not_mem_told {ts : List Transition} (hts : ∀ t ∈ ts, t.event.endsRound = false) :
    .none ∉ told ts := by
  intro hmem
  obtain ⟨t, ht, hnone⟩ := List.mem_flatMap.mp hmem
  have hinside := hts t ht
  cases he : t.event with
  | round => rw [he] at hinside; cases hinside
  | _ => simp [he, Event.told] at hnone

/-- A round of a program evaluates it and then lets a tick pass in which nothing is done. -/
theorem Program.runs_round {a : Form} (hp : Program a) (env : Environment σ) (s : σ) :
    ∃ e ok s' es, (Node.form a).eval env s = some e ∧ env.advance .none e.state = (ok, s') ∧
      (∀ x ∈ es, x.endsRound = false) ∧
      Runs env.overheard a [] ⟨s, []⟩ (es ++ [.round a (some e.value)]) []
        ⟨s', e.calls ++ [.advance .none ok]⟩ := by
  obtain ⟨e, g, heval, hg, es, hes, hrun⟩ :
      ∃ e g, (Node.form a).eval env s = some e ∧ Frame.Finished g a e.value ∧
        Evaluates env a [.enter a] s e.calls [g] e.state :=
    hp.evaluates [] s
  obtain ⟨ok, s', hadv, hround⟩ := hg.round env a e.state e.calls
  refine ⟨e, ok, s', .start a :: es, heval, hadv, List.forall_mem_cons.mpr ⟨rfl, hes⟩, ?_⟩
  exact .step .start ((hrun []).trans (.one hround))

/-- One round of a machine does what its program means.

From an empty stack, steps that all succeed lead to an empty stack again, for the first
time.  What they ask of the game is what the meaning asks, followed by one tick in which
nothing is done.  The last step reports the value of the program, one round has been
counted, and as many moves as the meaning makes. -/
theorem Machine.round_refines_eval (env : Environment σ) (m : Machine σ)
    (hp : m.program.validate = .ok ()) (hs : m.stack = []) :
    ∃ (e : Evaluated σ) (ok : Bool) (ts : List Transition) (last : Transition) (m' : Machine σ),
      (Node.form m.program).eval env m.state = some e ∧
      env.advance .none e.state = (ok, m'.state) ∧
      Steps env m (ts ++ [last]) m' ∧
      Steps env.overheard (m.overhearing []) (ts ++ [last])
        (m'.overhearing (e.calls ++ [.advance .none ok])) ∧
      m'.stack = [] ∧ (∀ t ∈ ts, t.pending ≠ []) ∧
      last.event = .round m.program (some e.value) ∧
      m'.stats.rounds = m.stats.rounds + 1 ∧
      m'.stats.actions =
        m.stats.actions + Int64.ofNat (e.calls.filterMap Call.action?).length := by
  obtain ⟨program, s, stack, stats⟩ := m
  obtain rfl : stack = [] := hs
  obtain ⟨e, ok, s', es, heval, hadv, hes, hrun⟩ :=
    (Form.validate_eq_ok_iff.mp hp).runs_round env s
  obtain ⟨all, hall, hevents⟩ := steps_of_runs (m := overhearing ⟨program, s, [], stats⟩ []) hrun
  obtain ⟨ts, end', rfl, rfl, hend⟩ := List.map_eq_append_iff.mp hevents
  obtain ⟨last, rfl, hlast⟩ := List.map_eq_singleton_iff.mp hend
  have hts : ∀ t ∈ ts, t.event.endsRound = false := List.forall_mem_map.mp hes
  have hbare := hall.mapState env.overheard_covers
  obtain ⟨mid, hinside, -⟩ := hbare.split
  -- The counters follow what was told: the moves of the meaning, and one tick without.
  have hlasttold : told [last] = [.none] := by
    simp [hlast, Event.told]
  have htold : e.calls.filterMap Call.action? = told ts := by
    obtain ⟨calls, hcalls, htold⟩ := hall.overheard_told
    obtain rfl : e.calls ++ [.advance .none ok] = calls := hcalls
    rw [List.filterMap_append, told_append, hlasttold] at htold
    exact List.append_cancel_right htold
  have hnone : .none ∉ told ts := none_not_mem_told hts
  refine ⟨e, ok, ts, last, _, heval, hadv, hbare, hall, rfl, hinside.pending_ne_nil hts, hlast,
    ?_, ?_⟩
  · rw [hbare.rounds_eq, told_append, hlasttold, List.count_append, List.count_eq_zero.mpr hnone]
    rfl
  · have hmoves : (told ts).countP (· ≠ .none) = (told ts).length := by
      rw [List.countP_eq_length]
      intro a ha
      simpa using ne_of_mem_of_not_mem ha hnone
    rw [hbare.actions_eq, told_append, hlasttold, List.countP_append, hmoves, htold]
    rfl

/-- Shoot when the two distances agree, and otherwise move to the left and back. -/
def duelist : Form :=
  Form.ifElse (.form (Form.eq (Leaf.sense .distX).node (Leaf.sense .distY).node))
    (Leaf.move .shoot).node
    (.form (Form.prog2 (Leaf.move .left).node (Leaf.move .right).node))

theorem duelist_valid : duelist.validate = .ok () :=
  Form.validate_eq_ok_iff.mpr <|
    .ifElse (.program (.eq (.leaf _) (.leaf _))) (.leaf _) (.program (.prog2 (.leaf _) (.leaf _)))

/-- Both distances are zero in the empty script, so a round of the duelist shoots. -/
theorem Machine.round_of_duelist :
    ∃ (ts : List Transition) (last : Transition) (m' : Machine Scripted),
      Steps scriptedGame.overheard ((Machine.new duelist ⟨{}, [], 0, 0, rfl⟩).overhearing [])
        (ts ++ [last])
        (m'.overhearing [.read .distX 0, .read .distY 0, .advance (.move .shoot) true,
          .advance .none true]) ∧
      m'.stack = [] ∧ (∀ t ∈ ts, t.pending ≠ []) ∧ last.event = .round duelist (some 1) ∧
      m'.stats.rounds = 1 ∧ m'.stats.actions = 1 := by
  obtain ⟨e, ok, ts, last, m', heval, hadv, -, hall, hstack, hpending, hlast, hrounds, hactions⟩ :=
    Machine.round_refines_eval scriptedGame (Machine.new duelist ⟨{}, [], 0, 0, rfl⟩)
      duelist_valid rfl
  simp only [Machine.new, duelist, Form.eval_ifElse, Form.eval_eq, Leaf.eval_node] at heval
  obtain rfl := Option.some.inj heval
  cases (congrArg Prod.fst hadv : true = ok)
  exact ⟨ts, last, m', hall, hstack, hpending, hlast, hrounds, hactions⟩

end Stepwise
