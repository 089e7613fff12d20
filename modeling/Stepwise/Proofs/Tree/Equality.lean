import Stepwise.Proofs.Tree.Whole
import Stepwise.Tree.Placed

/-!
# The comparison of trees decides equality

Comparing two trees child by child decides whether they are the same (`Node.same_eq_true`), with
missing nodes anywhere.

In memory two forms in the same place need not be looked into, since a place holds one form.  So
the comparison there has the same answer as the one that looks at everything
(`Placed.same_eq`), however much the two trees share.  A memory for any trees is that in which the
place of a form is the form itself, and equal forms are shared throughout (`Node.shared`).
-/

namespace Stepwise

variable {α : Type}

namespace Placed

theorem length_nodes (ns : List (Placed α)) : (nodes ns).length = ns.length := by
  induction ns with
  | nil => rfl
  | cons n ns ih => rw [nodes, List.length_cons, List.length_cons, ih]

variable {memory : α → List (Placed α)} {p : α} {as bs : List (Placed α)}

/-- A place holds one form. -/
theorem KeptIn.children_eq (h : (Placed.form p as).KeptIn memory) : as = memory p := by
  cases h with
  | form => rfl

theorem KeptIn.children (h : (Placed.form p as).KeptIn memory) : ∀ n ∈ as, n.KeptIn memory := by
  cases h with
  | form _ h => exact h

/-- Lists of different lengths are not the same. -/
theorem sameAll_nodes_eq_false (h : as.length ≠ bs.length) :
    Node.sameAll (nodes as) (nodes bs) = false := by
  rw [← Bool.not_eq_true, Node.sameAll_eq_true]
  intro heq
  have hlength := congrArg List.length heq
  rw [length_nodes, length_nodes] at hlength
  exact h hlength

variable [DecidableEq α]

mutual

/-- To leave out what lies in the same place does not change the answer. -/
theorem same_eq : ∀ (a b : Placed α), a.KeptIn memory → b.KeptIn memory →
    a.same b = a.node.same b.node
  | .missing, b, _, _ => by cases b <;> rfl
  | .terminal _, b, _, _ => by cases b <;> rfl
  | .form _ _, .missing, _, _ => rfl
  | .form _ _, .terminal _, _, _ => rfl
  | .form p as, .form q bs, ha, hb => by
      rw [same, node, node, Node.same]
      by_cases hplace : p = q
      · obtain rfl : as = bs := by
          rw [ha.children_eq, hb.children_eq, hplace]
        have hself : Node.sameAll (nodes as) (nodes as) = true := (Node.sameAll_eq_true _ _).mpr rfl
        rw [hself, decide_eq_true hplace, Bool.true_or]
      · rw [decide_eq_false hplace, Bool.false_or]
        by_cases hlength : as.length = bs.length
        · rw [decide_eq_true hlength, Bool.true_and]
          exact sameAll_eq as bs hlength ha.children hb.children
        · rw [decide_eq_false hlength, Bool.false_and, sameAll_nodes_eq_false hlength]

theorem sameAll_eq : ∀ (as bs : List (Placed α)), as.length = bs.length →
    (∀ n ∈ as, n.KeptIn memory) → (∀ n ∈ bs, n.KeptIn memory) →
    sameAll as bs = Node.sameAll (nodes as) (nodes bs)
  | [], [], _, _, _ => rfl
  | a :: as, b :: bs, hlength, has, hbs => by
      obtain ⟨ha, has⟩ := List.forall_mem_cons.mp has
      obtain ⟨hb, hbs⟩ := List.forall_mem_cons.mp hbs
      rw [sameAll, nodes, nodes, Node.sameAll, same_eq a b ha hb,
        sameAll_eq as bs (Nat.succ.inj hlength) has hbs]

end

end Placed

/-! ## Sharing all that can be shared -/

namespace Node

mutual

/-- The tree in the memory in which every form is its own place. -/
def shared : Node → Placed Form
  | .missing => .missing
  | .terminal name => .terminal name
  | .form children => .form children (sharedAll children)

/-- What that memory holds in the place of a form. -/
def sharedAll : Form → List (Placed Form)
  | [] => []
  | n :: ns => shared n :: sharedAll ns

end

mutual

theorem node_shared : (n : Node) → n.shared.node = n
  | .missing => rfl
  | .terminal _ => rfl
  | .form children => by rw [shared, Placed.node, nodes_sharedAll children]

theorem nodes_sharedAll : (ns : List Node) → Placed.nodes (sharedAll ns) = ns
  | [] => rfl
  | n :: ns => by rw [sharedAll, Placed.nodes, node_shared n, nodes_sharedAll ns]

end

mutual

theorem shared_keptIn : (n : Node) → n.shared.KeptIn sharedAll
  | .missing => .missing
  | .terminal name => .terminal name
  | .form children => .form children (sharedAll_keptIn children)

theorem sharedAll_keptIn : (ns : List Node) → ∀ p ∈ sharedAll ns, p.KeptIn sharedAll
  | [] => List.forall_mem_nil _
  | n :: ns => List.forall_mem_cons.mpr ⟨shared_keptIn n, sharedAll_keptIn ns⟩

end

/-! ## Equality -/

/-- The comparison of trees decides whether they are the same, so it is reflexive, symmetric and
transitive.

Any two trees can be kept in memory, and wherever their forms are, the comparison that leaves out
forms in the same place has the same answer.  Trees that are the same and have no hole have the
same digest, text, depth and size, and none of these is stopped by a hole. -/
theorem same_decides :
    (∀ a b : Node, a.same b = true ↔ a = b) ∧
    (∀ a : Node, a.same a = true) ∧
    (∀ a b : Node, a.same b = b.same a) ∧
    (∀ a b c : Node, a.same b = true → b.same c = true → a.same c = true) ∧
    (∀ (α : Type) [DecidableEq α] (memory : α → List (Placed α)) (p q : Placed α),
      p.KeptIn memory → q.KeptIn memory → p.same q = p.node.same q.node) ∧
    (∀ a b : Node, ∃ (memory : Form → List (Placed Form)) (p q : Placed Form),
      p.KeptIn memory ∧ q.KeptIn memory ∧ p.node = a ∧ q.node = b) ∧
    ∀ a b : Node, a.hasMissing = false → a.same b = true →
      (a.digest = b.digest ∧ a.text = b.text ∧ a.depth = b.depth ∧ a.nodeCount = b.nodeCount) ∧
      ∀ n ∈ [a, b], n.digest? = some n.digest ∧ n.text? = some n.text ∧
        n.depth? = some n.depth ∧ n.nodeCount? = some n.nodeCount := by
  refine ⟨same_eq_true, fun a => (same_eq_true a a).mpr rfl, fun a b => ?_, fun a b c => ?_,
    fun α _ memory p q => Placed.same_eq p q, fun a b => ?_, fun a b hwhole hsame => ?_⟩
  · rw [Bool.eq_iff_iff, same_eq_true, same_eq_true, eq_comm]
  · simp only [same_eq_true]
    exact Eq.trans
  · exact ⟨sharedAll, a.shared, b.shared, a.shared_keptIn, b.shared_keptIn, a.node_shared,
      b.node_shared⟩
  · obtain rfl := (same_eq_true a b).mp hsame
    refine ⟨⟨rfl, rfl, rfl, rfl⟩, fun n hn => ?_⟩
    obtain rfl : n = a := by simpa using hn
    simp [digest?_eq, text?_eq, depth?_eq, nodeCount?_eq, hwhole]

/-- A comparison whose second operand is missing. -/
def halfEq : List (Placed Nat) := [.terminal "eq", .terminal "left", .missing]

/-- A memory with two copies of that form.  The form in place 2 has the first copy twice, and the
form in place 3 has both. -/
def twoCopies : Nat → List (Placed Nat)
  | 0 => halfEq
  | 1 => halfEq
  | 2 => [.terminal "prog2", .form 0 halfEq, .form 0 halfEq]
  | 3 => [.terminal "prog2", .form 0 halfEq, .form 1 halfEq]
  | _ => []

theorem twoCopies_keptIn (k : Nat) : (Placed.form k (twoCopies k)).KeptIn twoCopies := by
  have hhalf : ∀ n ∈ halfEq, n.KeptIn twoCopies := by
    simp [halfEq, Placed.KeptIn.missing, Placed.KeptIn.terminal]
  have hfirst : (Placed.form 0 halfEq).KeptIn twoCopies := .form 0 hhalf
  have hsecond : (Placed.form 1 halfEq).KeptIn twoCopies := .form 1 hhalf
  refine .form k ?_
  match k with
  | 0 => exact hhalf
  | 1 => exact hhalf
  | 2 => simp [twoCopies, hfirst, Placed.KeptIn.terminal]
  | 3 => simp [twoCopies, hfirst, hsecond, Placed.KeptIn.terminal]
  | _ + 4 => exact List.forall_mem_nil _

/-- The forms in places 2 and 3 are the same, and neither is the form in place 0.  A tree without
holes can be measured. -/
theorem same_decides_copies :
    let tree := fun k => Placed.form k (twoCopies k)
    let sensors : Node := .form (Form.eq (Leaf.sense .distX).node (Leaf.sense .distY).node)
    ((tree 2).same (tree 3) = true ∧ (tree 2).node.same (tree 3).node = true) ∧
    ((tree 2).same (tree 0) = false ∧ (tree 2).node.same (tree 0).node = false) ∧
    sensors.hasMissing = false ∧ sensors.same sensors = true ∧
      sensors.text? = some "(eq dist-x dist-y)" ∧ sensors.depth? = some 2 := by
  intro tree sensors
  obtain ⟨-, hself, -, -, hplaces, -, hmeasures⟩ := same_decides
  have hsame : (tree 2).same (tree 3) = true := by decide
  have hother : (tree 2).same (tree 0) = false := by decide
  have hwhole : sensors.hasMissing = false := by decide
  have h23 := hplaces Nat twoCopies (tree 2) (tree 3) (twoCopies_keptIn 2) (twoCopies_keptIn 3)
  have h20 := hplaces Nat twoCopies (tree 2) (tree 0) (twoCopies_keptIn 2) (twoCopies_keptIn 0)
  obtain ⟨-, htext, hdepth, -⟩ :=
    (hmeasures sensors sensors hwhole (hself sensors)).2 sensors (by simp)
  exact ⟨⟨hsame, h23.symm.trans hsame⟩, ⟨hother, h20.symm.trans hother⟩, hwhole, hself sensors,
    htext.trans (by decide +kernel), hdepth.trans (by decide)⟩

end Node

end Stepwise
