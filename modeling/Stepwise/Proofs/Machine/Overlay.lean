import Stepwise.Game.Recorder
import Stepwise.Proofs.Machine.Picture
import Stepwise.Proofs.Machine.Safety

/-!
# A trace shows the whole state of an evaluation

A trace is the text of a picture (`Machine.Sound.trace_eq`), and the text of a picture can be
read in one way.  What is left is to find the frames in the picture.

Without its decorations the picture is the program (`Frame.Nest.picture_node`).  A frame is found
from the decorations of its children.  A child shows a value exactly if the cursor has passed
it, so the values end where the cursor stands, and the slots that are not shown are empty
(`Frame.Coherent.slot_eq`, `Frame.Coherent.cursor_eq`).  At the cursor there is the mark in the
innermost frame, and the picture of the inner frames in every other.
-/

namespace Stepwise

variable {σ τ : Type}

/-! ## Pictures of programs -/

namespace Picture

mutual

/-- The picture of a tree, without decorations. -/
def ofNode : Node → Picture
  | .missing => .leaf .bare "<nil>"
  | .terminal name => .leaf .bare name
  | .form ns => .form .bare (ofNodes ns)

def ofNodes : List Node → List Picture
  | [] => []
  | n :: ns => ofNode n :: ofNodes ns

end

mutual

/-- The tree in a picture, without the decorations. -/
def node : Picture → Node
  | .leaf _ name => .terminal name
  | .form _ ps => .form (nodes ps)

def nodes : List Picture → List Node
  | [] => []
  | p :: ps => node p :: nodes ps

end

theorem ofNodes_eq_map (ns : List Node) : ofNodes ns = ns.map ofNode := by
  induction ns with
  | nil => rfl
  | cons n ns ih => rw [ofNodes, ih, List.map_cons]

theorem nodes_eq_map (ps : List Picture) : nodes ps = ps.map node := by
  induction ps with
  | nil => rfl
  | cons p ps ih => rw [nodes, ih, List.map_cons]

@[simp] theorem node_decorated (d : Decoration) (p : Picture) :
    (p.decorated d).node = p.node := by
  cases p <;> rfl

end Picture

/-- The picture of the node shows it as it is laid out, and can be read. -/
structure Node.Depicted (n : Node) : Prop where
  plain : (Picture.ofNode n).Plain
  node : (Picture.ofNode n).node = n
  layout : ∀ t rest, n.layout t rest = (Picture.ofNode n).body t rest
  bare : (Picture.ofNode n).decoration = .bare

namespace Node

theorem Depicted.render {n : Node} (h : n.Depicted) (t : Nat) (rest : List Char) :
    (Picture.ofNode n).render t rest = n.layout t rest := by
  rw [Picture.render_eq, h.bare, h.layout]
  rfl

theorem depicted_terminal {name : String} (hne : name ≠ "")
    (hname : ∀ c ∈ name.toList, isPlain c = true) : (Node.terminal name).Depicted where
  plain := .leaf hne hname
  node := rfl
  layout _ _ := by rw [Node.layout, spell]; rfl
  bare := rfl

theorem layoutTail_eq {ns : List Node} (h : ∀ n ∈ ns, n.Depicted) (t : Nat) (rest : List Char) :
    layoutTail t ns rest = Picture.renderTail t (Picture.ofNodes ns) rest := by
  induction ns with
  | nil => rfl
  | cons n ns ih =>
      rw [layoutTail, Picture.ofNodes, Picture.renderTail, (h n (by simp)).render,
        ih fun n hn => h n (by simp [hn])]

theorem depicted_form {name : String} {ns : List Node} (hname : (Node.terminal name).Depicted)
    (hns : ∀ n ∈ ns, n.Depicted) : (Node.form (.terminal name :: ns)).Depicted := by
  have hall : ∀ n ∈ Node.terminal name :: ns, n.Depicted := List.forall_mem_cons.mpr ⟨hname, hns⟩
  constructor
  case plain =>
    refine .form fun p hp => ?_
    rw [Picture.ofNodes_eq_map] at hp
    obtain ⟨n, hn, rfl⟩ := List.mem_map.mp hp
    exact (hall n hn).plain
  case node =>
    have hnodes : ((Node.terminal name :: ns).map Picture.ofNode).map Picture.node =
        .terminal name :: ns := by
      rw [List.map_map]
      exact (List.map_congr_left fun n hn => (hall n hn).node).trans (List.map_id _)
    rw [Picture.ofNode, Picture.node, Picture.nodes_eq_map, Picture.ofNodes_eq_map, hnodes]
  case layout =>
    intro t rest
    rw [Node.layout, layoutTail_eq hns]
    simp only [Picture.ofNode, Picture.ofNodes, Picture.body, Picture.renderAll, Picture.render,
      closing, spell]
    rfl
  case bare => rfl

end Node

theorem Leaf.depicted (l : Leaf) : l.node.Depicted := by
  rcases l with (_ | _ | _) | (_ | _) <;>
    exact Node.depicted_terminal (by decide) (List.all_eq_true.mp rfl)

theorem Control.depicted (c : Control) : (Node.terminal c.name).Depicted := by
  cases c <;> exact Node.depicted_terminal (by decide) (List.all_eq_true.mp rfl)

mutual

theorem Operand.depicted : ∀ {n : Node}, Operand n → n.Depicted
  | _, .leaf l => l.depicted
  | _, .program hp => hp.depicted

theorem Program.depicted : ∀ {a : Form}, Program a → (Node.form a).Depicted
  | _, .ifElse hc ht he => Node.depicted_form (Control.depicted _) (by
      simp [hc.depicted, ht.depicted, he.depicted])
  | _, .eq ha hb => Node.depicted_form (Control.depicted _) (by
      simp [ha.depicted, hb.depicted])
  | _, .prog2 ha hb => Node.depicted_form (Control.depicted _) (by
      simp [ha.depicted, hb.depicted])
  | _, .prog3 ha hb hc => Node.depicted_form (Control.depicted _) (by
      simp [ha.depicted, hb.depicted, hc.depicted])

end

/-- A program is its operator and its operands, and all of them are depicted. -/
theorem Program.eq_cons {a : Form} (h : Program a) :
    ∃ name ns, a = .terminal name :: ns ∧ (Node.terminal name).Depicted ∧
      ∀ n ∈ ns, n.Depicted := by
  obtain ⟨c, hc, -, hns⟩ := program_iff.mp h
  obtain ⟨ns, rfl⟩ := Form.control_eq_ok_iff.mp hc
  exact ⟨c.name, ns, rfl, c.depicted, fun n hn => (hns n hn).depicted⟩

/-! ## Pictures of frames -/

namespace Frame

/-- Does the frame show a value for child `k`? -/
def shows (f : Frame) (k : Nat) : Bool :=
  match f.cursor with
  | .operand j => 1 ≤ k && k < j
  | .resolving => 1 ≤ k
  | .finished => true

/-- The decoration of child `k`.  Only the innermost frame has the mark. -/
def decoration (f : Frame) (innermost : Bool) (k : Nat) : Decoration :=
  ⟨innermost && f.marked = k, if f.shows k then some (f.slot k) else none⟩

/-- The picture of child `k`, where `inner` is the picture of the frames inside this one. -/
def childPicture (f : Frame) (inner : Option Picture) (k : Nat) (n : Node) : Picture :=
  match inner with
  | none => (Picture.ofNode n).decorated (f.decoration true k)
  | some p => if f.marked = k then p else (Picture.ofNode n).decorated (f.decoration false k)

def childPictures (f : Frame) (inner : Option Picture) (k : Nat) (ns : List Node) : List Picture :=
  (ns.zipIdx k).map fun (n, i) => f.childPicture inner i n

theorem childPictures_cons (f : Frame) (inner : Option Picture) (k : Nat) (n : Node)
    (ns : List Node) : f.childPictures inner k (n :: ns) =
      f.childPicture inner k n :: f.childPictures inner (k + 1) ns := rfl

/-- The picture of a frame, where `inner` is that of the frames inside it. -/
def picture (f : Frame) (inner : Option Picture) : Picture :=
  .form .bare (f.childPictures inner 0 f.scope)

/-- The picture of nested frames, the outermost first, if there are any. -/
def pictureOf : List Frame → Option Picture
  | [] => none
  | f :: fs => some (f.picture (pictureOf fs))

/-- A child is shown with its decoration, or it is where the inner frames are. -/
theorem childPicture_cases (f : Frame) (inner : Option Picture) (k : Nat) (n : Node) :
    f.childPicture inner k n = (Picture.ofNode n).decorated (f.decoration inner.isNone k) ∨
      f.marked = k ∧ inner = some (f.childPicture inner k n) := by
  cases inner with
  | none => exact .inl rfl
  | some p =>
      by_cases hk : f.marked = k
      · exact .inr ⟨hk, by simp [childPicture, hk]⟩
      · exact .inl (by simp [childPicture, hk])

theorem picture_of_children {f : Frame} {inner : Option Picture}
    (h : ∀ k n, f.scope[k]? = some n →
      (f.childPicture inner k n).Plain ∧ (f.childPicture inner k n).node = n) :
    (f.picture inner).Plain ∧ (f.picture inner).node = .form f.scope := by
  constructor
  · refine .form fun p hp => ?_
    obtain ⟨⟨n, k⟩, hmem, rfl⟩ := List.mem_map.mp hp
    exact (h k n (List.mk_mem_zipIdx_iff_getElem?.mp hmem)).1
  · have hnodes : (f.childPictures inner 0 f.scope).map Picture.node = f.scope := by
      rw [childPictures, List.map_map]
      calc _ = (f.scope.zipIdx 0).map Prod.fst := List.map_congr_left fun (n, k) hmem =>
              (h k n (List.mk_mem_zipIdx_iff_getElem?.mp hmem)).2
        _ = f.scope := List.zipIdx_map_fst 0 f.scope
    rw [picture, Picture.node, Picture.nodes_eq_map, hnodes]

/-- A frame that is not the innermost waits at an operand. -/
def Waits (f : Frame) (inner : Option Picture) : Prop :=
  inner.isSome → ∃ j, f.cursor = .operand j ∧ 1 ≤ j

variable {f g : Frame} {inner : Option Picture} {t k : Nat} {n : Node} {rest : List Char}

/-- The cursor stands at a child that shows a value only once the frame is finished. -/
theorem shows_marked (f : Frame) : f.shows f.marked = decide (f.cursor = .finished) := by
  unfold shows marked operandNumber
  cases f.cursor <;> simp

section Children

variable (hn : n.Depicted) (hop : k = 0 → ∃ name, n = .terminal name)

include hn hop in
/-- Without marks and inner frames, a child is shown with the value of its slot or as it is. -/
theorem child_eq : f.child t none k n rest = (f.decoration false k).around (n.layout t) rest := by
  cases k with
  | zero =>
      -- The operator is spelled, and everything else is laid out.
      obtain ⟨name, rfl⟩ := hop rfl
      cases hcur : f.cursor <;>
        simp [child, decoration, shows, hcur, Decoration.around, annotated, result, Node.layout]
  | succ k =>
      cases hcur : f.cursor with
      | operand j =>
          by_cases hj : j ≤ k + 1
          · simp [child, decoration, shows, hcur, Decoration.around, hj, Nat.not_lt.mpr hj]
          · simp [child, decoration, shows, hcur, Decoration.around, hj, Nat.lt_of_not_le hj,
              annotated]
      | resolving => simp [child, decoration, shows, hcur, Decoration.around, annotated]
      | finished => simp [child, decoration, shows, hcur, Decoration.around, annotated]

theorem child_some {write : List Char → List Char} {j : Nat} (hcur : f.cursor = .operand j)
    (hj : 1 ≤ j) :
    f.child t (some write) k n rest = if j = k then write rest else f.child t none k n rest := by
  cases k with
  | zero => simp [child, hcur, Nat.ne_of_gt hj]
  | succ k => simp [child, hcur]

include hn hop in
theorem markedChild_eq (hf : f.Waits inner) :
    f.markedChild t (inner.map fun p => p.render t) k n rest =
      (f.childPicture inner k n).render t rest := by
  cases inner with
  | none =>
      rw [childPicture, Picture.render_decorated, ← funext (hn.layout t)]
      by_cases hk : f.marked = k
      · have hshows : f.shows k = decide (f.cursor = .finished) := hk ▸ f.shows_marked
        by_cases hfin : f.cursor = .finished
        · simp [markedChild, child_eq hn hop, decoration, hk, hshows, hfin, Decoration.around]
        · simp [markedChild, child_eq hn hop, decoration, hk, hshows, hfin, Decoration.around]
      · simp [markedChild, child_eq hn hop, decoration, hk]
  | some p =>
      obtain ⟨j, hcur, hj⟩ := hf rfl
      have hmarked : f.marked = j := operandNumber_eq hcur
      by_cases hk : j = k
      · simp [markedChild, child_some hcur hj, childPicture, hmarked, hk]
      · simp [markedChild, child_some hcur hj, childPicture, hmarked, hk, child_eq hn hop,
          Picture.render_decorated, ← funext (hn.layout t)]

end Children

/-- The later children of a frame are those of its picture. -/
theorem children_eq (hf : f.Waits inner) {ns : List Node} (hns : ∀ n ∈ ns, n.Depicted) :
    f.children t (inner.map fun p => p.render t) (k + 1) ns rest =
      Picture.renderTail t (f.childPictures inner (k + 1) ns) rest := by
  induction ns generalizing k with
  | nil => rfl
  | cons n ns ih =>
      rw [children, ih fun n hn => hns n (by simp [hn]), childPictures_cons, Picture.renderTail,
        markedChild_eq (hns n (by simp)) (fun h => absurd h (Nat.succ_ne_zero k)) hf]

theorem render_picture (hf : f.Waits inner) (hp : Program f.scope) :
    '(' :: f.children (t + 1) (inner.map fun p => p.render (t + 1)) 0 f.scope (closing t rest) =
      (f.picture inner).render t rest := by
  obtain ⟨name, ns, hscope, hname, hns⟩ := hp.eq_cons
  rw [picture, Picture.render, hscope, children, children_eq hf hns, childPictures_cons,
    markedChild_eq hname (fun _ => ⟨name, rfl⟩) hf]
  rfl

/-! ## Nested frames -/

/-- Frames, the outermost first, that lie inside each other. -/
structure Nest (fs : List Frame) : Prop where
  chain : fs.IsChain fun outer inner => outer.Hosts inner.scope
  coherent : ∀ f ∈ fs, f.Coherent
  valid : ∀ f ∈ fs, Program f.scope

namespace Nest

variable {fs gs : List Frame}

theorem tail (h : Nest (f :: fs)) : Nest fs where
  chain := h.chain.tail
  coherent g hg := h.coherent g (List.mem_cons_of_mem f hg)
  valid g hg := h.valid g (List.mem_cons_of_mem f hg)

theorem head (h : Nest (f :: fs)) : f.Coherent ∧ Program f.scope :=
  ⟨h.coherent f (List.mem_cons_self ..), h.valid f (List.mem_cons_self ..)⟩

theorem hosts (h : Nest (f :: g :: fs)) : f.Hosts g.scope :=
  (List.isChain_cons_cons.mp h.chain).1

theorem waits (h : Nest (f :: fs)) : f.Waits (pictureOf fs) := by
  intro hinner
  cases fs with
  | nil => cases hinner
  | cons g fs =>
      obtain ⟨c, j, hat, -, -⟩ := h.hosts
      exact ⟨j, hat.cursor, (hat.range h.head.1).1⟩

/-- The overlay of nested frames is the text of their picture. -/
theorem overlay_eq (h : Nest (f :: fs)) (t : Nat) (rest : List Char) :
    overlay t (f :: fs) rest = (f.picture (pictureOf fs)).render t rest := by
  induction fs generalizing f t rest with
  | nil =>
      rw [overlay, ← render_picture h.waits h.head.2]
      rfl
  | cons g fs ih =>
      have hinner : (fun r => overlay (t + 1) (g :: fs) r) =
          (g.picture (pictureOf fs)).render (t + 1) := funext fun r => ih h.tail (t + 1) r
      rw [overlay, hinner, ← render_picture h.waits h.head.2]
      rfl

theorem depicted (h : Nest (f :: fs)) {n : Node} (hn : f.scope[k]? = some n) : n.Depicted := by
  have hmem := List.mem_of_getElem? hn
  obtain ⟨name, ns, hscope, hname, hns⟩ := h.head.2.eq_cons
  rw [hscope] at hmem
  rcases List.mem_cons.mp hmem with rfl | hmem
  · exact hname
  · exact hns n hmem

/-- The picture of nested frames can be read, and without decorations it is the form of the
outermost. -/
theorem picture_plain_node (h : Nest (f :: fs)) :
    (f.picture (pictureOf fs)).Plain ∧ (f.picture (pictureOf fs)).node = .form f.scope := by
  induction fs generalizing f with
  | nil =>
      refine picture_of_children fun k n hn => ?_
      have hd := h.depicted hn
      exact ⟨hd.plain.decorated _, (Picture.node_decorated _ _).trans hd.node⟩
  | cons g fs ih =>
      refine picture_of_children fun k n hn => ?_
      rcases f.childPicture_cases (pictureOf (g :: fs)) k n with hchild | ⟨hk, hinner⟩
      · have hd := h.depicted hn
        rw [hchild]
        exact ⟨hd.plain.decorated _, (Picture.node_decorated _ _).trans hd.node⟩
      · -- The child is the form of the next frame, for whose result this one waits.
        obtain ⟨hplain, hnode⟩ := ih h.tail
        obtain ⟨c, j, hat, -, hscope⟩ := h.hosts
        obtain rfl : j = k := hat.operandNumber_eq.symm.trans hk
        have hform : Node.form g.scope = n := Option.some.inj (hscope.symm.trans hn)
        rw [← Option.some.inj hinner, ← hform]
        exact ⟨hplain, hnode⟩

theorem childPicture_decoration (h : Nest (f :: fs)) (k : Nat) (n : Node) :
    (f.childPicture (pictureOf fs) k n).decoration = f.decoration fs.isEmpty k := by
  rcases f.childPicture_cases (pictureOf fs) k n with hchild | ⟨hk, hinner⟩
  · rw [hchild, Picture.decoration_decorated]
    cases fs <;> rfl
  · cases fs with
    | nil => cases hinner
    | cons g fs =>
        have hshows : f.shows k = false := by
          obtain ⟨c, j, hat, -, -⟩ := h.hosts
          rw [← hk, shows_marked, hat.cursor]
          rfl
        rw [← Option.some.inj hinner, decoration, hshows]
        rfl

end Nest

/-! ## Finding the frames -/

/-- A slot holds the value that is shown for its child, and is empty if none is shown. -/
theorem Coherent.slot_eq (hf : f.Coherent) (innermost : Bool) (k : Nat) :
    f.slot k = (f.decoration innermost k).value?.join := by
  cases hshows : f.shows k with
  | true => simp [decoration, hshows]
  | false =>
      have hnone : f.slot k = none := by
        unfold shows at hshows
        by_cases hk : k = 0
        · subst hk
          refine hf.unfinished fun hcur => ?_
          rw [hcur] at hshows
          cases hshows
        · cases hcur : f.cursor with
          | operand j =>
              have hrange := hf.cursor_range j hcur
              have hle : j ≤ k := by
                have : ¬ (1 ≤ k ∧ k < j) := by simpa [hcur] using hshows
                omega
              refine hf.ahead k ?_
              rw [progress, hcur]
              simp only
              omega
          | resolving =>
              rw [hcur] at hshows
              have : ¬ 1 ≤ k := by simpa using hshows
              omega
          | finished =>
              rw [hcur] at hshows
              cases hshows
      simp [decoration, hshows, hnone]

theorem shows_operand {j : Nat} (hcur : f.cursor = .operand j) :
    f.shows k = (decide (1 ≤ k) && decide (k < j)) := by
  rw [shows, hcur]

theorem shows_resolving (hcur : f.cursor = .resolving) : f.shows k = decide (1 ≤ k) := by
  rw [shows, hcur]

theorem shows_finished (hcur : f.cursor = .finished) : f.shows k = true := by
  rw [shows, hcur]

/-- The cursor stands behind the values that are shown. -/
theorem Coherent.cursor_eq (hf : f.Coherent) (hg : g.Coherent) (hscope : f.scope = g.scope)
    (hpos : 0 < f.scope.length) (h : ∀ k < f.scope.length, f.shows k = g.shows k) :
    f.cursor = g.cursor := by
  have hzero := h 0 hpos
  have hoperand : ∀ {f : Frame} {j : Nat}, f.Coherent → f.cursor = .operand j →
      1 ≤ j ∧ j < f.scope.length := by
    intro f j hf hcur
    have hrange := hf.cursor_range j hcur
    rw [Form.operandCount_eq] at hrange
    omega
  cases hcf : f.cursor with
  | operand j =>
      obtain ⟨hj, hlt⟩ := hoperand hf hcf
      have hat := h j hlt
      cases hcg : g.cursor with
      | operand i =>
          obtain ⟨hi, hlt'⟩ := hoperand hg hcg
          have hat' := h i (hscope ▸ hlt')
          simp [shows_operand hcf, shows_operand hcg, hj, hi] at hat hat'
          rw [Nat.le_antisymm hat' hat]
      | resolving => simp [shows_operand hcf, shows_resolving hcg, hj] at hat
      | finished => simp [shows_operand hcf, shows_finished hcg] at hzero
  | resolving =>
      cases hcg : g.cursor with
      | operand i =>
          obtain ⟨hi, hlt'⟩ := hoperand hg hcg
          have hat' := h i (hscope ▸ hlt')
          simp [shows_resolving hcf, shows_operand hcg, hi] at hat'
      | resolving => rfl
      | finished => simp [shows_resolving hcf, shows_finished hcg] at hzero
  | finished =>
      cases hcg : g.cursor with
      | operand i => simp [shows_finished hcf, shows_operand hcg] at hzero
      | resolving => simp [shows_finished hcf, shows_resolving hcg] at hzero
      | finished => rfl

theorem Coherent.marked_lt (hf : f.Coherent) (hpos : 0 < f.scope.length) :
    f.marked < f.scope.length := by
  unfold marked operandNumber
  cases hcur : f.cursor with
  | operand j =>
      have hrange := hf.cursor_range j hcur
      rw [Form.operandCount_eq] at hrange
      simp only
      omega
  | resolving => exact hpos
  | finished => exact hpos

/-- A frame is known from the decorations of its children, and so is whether it is the
innermost. -/
theorem Coherent.eq_of_decoration (hf : f.Coherent) (hg : g.Coherent)
    (hscope : f.scope = g.scope) (hpos : 0 < f.scope.length) {innermost innermost' : Bool}
    (h : ∀ k < f.scope.length, f.decoration innermost k = g.decoration innermost' k) :
    f = g ∧ innermost = innermost' := by
  have hshows : ∀ k < f.scope.length, f.shows k = g.shows k := by
    intro k hk
    have hvalue : ∀ (f : Frame) (b : Bool), (f.decoration b k).value?.isSome = f.shows k := by
      intro f b
      cases hs : f.shows k <;> simp [decoration, hs]
    rw [← hvalue f innermost, ← hvalue g innermost', h k hk]
  have hcursor : f.cursor = g.cursor := hf.cursor_eq hg hscope hpos hshows
  have hslots : f.slots = g.slots := by
    refine List.ext_getElem (by rw [hf.slots_length, hg.slots_length, hscope]) fun k hk hk' => ?_
    have hslot : f.slot k = g.slot k := by
      rw [hf.slot_eq innermost k, hg.slot_eq innermost' k, h k (hf.slots_length ▸ hk)]
    simpa [slot, hk, hk'] using hslot
  have hsame : f = g := by
    obtain ⟨scope, cursor, slots⟩ := f
    cases hscope
    cases hcursor
    cases hslots
    rfl
  subst hsame
  refine ⟨rfl, ?_⟩
  simpa [decoration] using congrArg Decoration.marked (h f.marked (hf.marked_lt hpos))

/-- Nested frames with the same picture are the same. -/
theorem Nest.pictureOf_inj {fs gs : List Frame} (hf : Nest fs) (hg : Nest gs)
    (h : pictureOf fs = pictureOf gs) : fs = gs := by
  induction fs generalizing gs with
  | nil =>
      cases gs with
      | nil => rfl
      | cons g gs => cases h
  | cons f fs ih =>
      cases gs with
      | nil => cases h
      | cons g gs =>
          have hpicture : f.picture (pictureOf fs) = g.picture (pictureOf gs) := Option.some.inj h
          have hscope : f.scope = g.scope := by
            have hnode := congrArg Picture.node hpicture
            rw [hf.picture_plain_node.2, hg.picture_plain_node.2] at hnode
            exact Node.form.inj hnode
          have hchild : ∀ k n, f.scope[k]? = some n →
              f.childPicture (pictureOf fs) k n = g.childPicture (pictureOf gs) k n := by
            intro k n hn
            have hchildren := (Picture.form.inj hpicture).2
            rw [childPictures, childPictures, ← hscope, List.map_inj_left] at hchildren
            exact hchildren (n, k) (List.mk_mem_zipIdx_iff_getElem?.mpr hn)
          have hdecoration : ∀ k < f.scope.length,
              f.decoration fs.isEmpty k = g.decoration gs.isEmpty k := by
            intro k hk
            rw [← hf.childPicture_decoration k f.scope[k],
              ← hg.childPicture_decoration k f.scope[k],
              hchild k f.scope[k] (List.getElem?_eq_getElem hk)]
          have hpos : 0 < f.scope.length := by
            obtain ⟨name, ns, hcons, -⟩ := hf.head.2.eq_cons
            simp [hcons]
          obtain ⟨rfl, hempty⟩ := hf.head.1.eq_of_decoration hg.head.1 hscope hpos hdecoration
          refine congrArg (f :: ·) (ih hf.tail hg.tail ?_)
          cases fs with
          | nil =>
              cases gs with
              | nil => rfl
              | cons => cases hempty
          | cons =>
              cases gs with
              | nil => cases hempty
              | cons =>
                  -- Both have the picture of the inner frames at the cursor.
                  have hmarked := List.getElem?_eq_getElem (hf.head.1.marked_lt hpos)
                  simpa [childPicture, pictureOf] using hchild f.marked _ hmarked

end Frame

/-! ## Traces -/

namespace Machine

/-- What a trace shows. -/
def picture (m : Machine σ) : Picture :=
  match Frame.pictureOf m.stack.outermostFirst with
  | none => (Picture.ofNode (.form m.program)).decorated ⟨true, none⟩
  | some p => p

variable {m : Machine σ} {m' : Machine τ}

theorem Sound.nest (h : m.Sound) : Frame.Nest m.stack.outermostFirst where
  chain := List.isChain_reverse.mpr h.coherent.nested
  coherent f hf := h.coherent.frames f (List.mem_reverse.mp hf)
  valid f hf := h.valid f (List.mem_reverse.mp hf)

/-- The trace of a machine is the text of its picture. -/
theorem Sound.trace_eq (h : m.Sound) : m.trace = String.ofList (m.picture.render 0 []) := by
  have hnest := h.nest
  unfold trace picture
  cases hframes : m.stack.outermostFirst with
  | nil =>
      simp only [Frame.pictureOf, Picture.render_decorated, h.program.depicted.layout]
      rfl
  | cons f fs =>
      rw [hframes] at hnest
      simp only [Frame.pictureOf, hnest.overlay_eq]

theorem Sound.picture_plain_node (h : m.Sound) :
    m.picture.Plain ∧ m.picture.node = .form m.program := by
  have hnest := h.nest
  unfold picture
  cases hframes : m.stack.outermostFirst with
  | nil =>
      have hd := h.program.depicted
      exact ⟨hd.plain.decorated _, (Picture.node_decorated _ _).trans hd.node⟩
  | cons f fs =>
      rw [hframes] at hnest
      have hf : f.scope = m.program := by
        refine h.coherent.outermost f ?_
        rw [← List.head?_reverse]
        exact congrArg List.head? hframes
      rw [← hf]
      exact hnest.picture_plain_node

/-- Between rounds the root is marked, and the root of a frame never is. -/
theorem picture_marked (m : Machine σ) :
    m.picture.decoration.marked = m.stack.outermostFirst.isEmpty := by
  unfold picture
  cases m.stack.outermostFirst with
  | nil => simp [Frame.pictureOf]
  | cons f fs => rfl

/-- Machines with the same picture have the same program and the same pending frames. -/
theorem Sound.eq_of_picture (h : m.Sound) (h' : m'.Sound) (hp : m.picture = m'.picture) :
    m.program = m'.program ∧ m.stack = m'.stack := by
  have hprogram : m.program = m'.program := by
    have hnode := congrArg Picture.node hp
    rw [h.picture_plain_node.2, h'.picture_plain_node.2] at hnode
    exact Node.form.inj hnode
  refine ⟨hprogram, ?_⟩
  have hframes : Frame.pictureOf m.stack.outermostFirst =
      Frame.pictureOf m'.stack.outermostFirst := by
    have hempty : m.stack.outermostFirst.isEmpty = m'.stack.outermostFirst.isEmpty := by
      rw [← picture_marked, ← picture_marked, hp]
    cases hf : m.stack.outermostFirst with
    | nil =>
        cases hf' : m'.stack.outermostFirst with
        | nil => rfl
        | cons => simp [hf, hf'] at hempty
    | cons =>
        cases hf' : m'.stack.outermostFirst with
        | nil => simp [hf, hf'] at hempty
        | cons => simpa [picture, hf, hf', Frame.pictureOf] using hp
  exact List.reverse_injective (h.nest.pictureOf_inj h'.nest hframes)

/-- A trace shows the whole state of the evaluation of a valid program: whoever knows the text
knows the program and every pending frame, with its form, its cursor and its slots. -/
theorem stack_of_trace (p q : Form) (hp : p.validate = .ok ()) (hq : q.validate = .ok ())
    (env : Environment σ) (env' : Environment τ) (s : σ) (s' : τ) (ops ops' : List Operation)
    (h : ((Machine.new p s).performAll env ops).trace =
      ((Machine.new q s').performAll env' ops').trace) :
    p = q ∧ ((Machine.new p s).performAll env ops).stack =
      ((Machine.new q s').performAll env' ops').stack := by
  have hm := performAll_sound (Form.validate_eq_ok_iff.mp hp) env s ops
  have hm' := performAll_sound (Form.validate_eq_ok_iff.mp hq) env' s' ops'
  rw [hm.trace_eq, hm'.trace_eq] at h
  have hpicture := Picture.render_inj hm.picture_plain_node.1 hm'.picture_plain_node.1
    (String.ofList_injective h)
  obtain ⟨hprogram, hstack⟩ := hm.eq_of_picture hm' hpicture
  rw [(performAll_coherent p s ops).1, (performAll_coherent q s' ops').1] at hprogram
  exact ⟨hprogram, hstack⟩

/-- Three steps of the duelist, in the empty script and in the same game with a recorder. -/
theorem stack_of_trace_duelist :
    let m := (Machine.new duelist (⟨{}, [], 0, 0, rfl⟩ : Scripted)).performAll scriptedGame
      [.step, .step, .step]
    let m' := (Machine.new duelist (⟨⟨{}, [], 0, 0, rfl⟩, []⟩ : Recorded Scripted)).performAll
      scriptedGame.recorded [.runTick, .reset, .step, .step, .step]
    m.trace = m'.trace ∧ m.stack = m'.stack ∧ m.stack.length = 2 := by
  intro m m'
  have htrace : m.trace = m'.trace := by rfl
  exact ⟨htrace, (stack_of_trace duelist duelist duelist_valid duelist_valid scriptedGame
    scriptedGame.recorded _ _ _ _ htrace).2, rfl⟩

end Machine

end Stepwise
