import Mathlib.Data.List.TakeWhile
import Stepwise.Proofs.Tree.Language

/-!
# The text of a tree can be read in one way

The text of a tree is spelled in front of a rest, and a reader has to find where the tree ends
and the rest begins.  A name ends where a character comes that no name has (`append_inj_of_halts`).
A form ends at its closing bracket, since each of its children is read completely before
the next (`Node.spell_inj`).

So two trees with the same text are the same tree, if every node is there and no name is
empty or holds a blank or a bracket (`Node.Legible`).  Programs are such trees
(`Program.legible`), which makes their text a key for them (`Program.text_inj`).
-/

namespace Stepwise

/-! ## Words and what comes after them -/

/-- The text is over, or goes on with a character outside the class `p`. -/
def Halts (p : Char → Bool) (rest : List Char) : Prop := ∀ c, rest.head? = some c → p c = false

variable {p : Char → Bool} {rest rest' : List Char}

theorem Halts.nil : Halts p [] := by
  intro c hc
  cases hc

theorem Halts.cons {c : Char} (hc : p c = false) : Halts p (c :: rest) := by
  intro c' hc'
  cases hc'
  exact hc

theorem Halts.takeWhile_eq (h : Halts p rest) : rest.takeWhile p = [] := by
  cases rest with
  | nil => rfl
  | cons c rest => simp [h c rfl]

/-- A word is read up to the first character that is not in its class. -/
theorem append_inj_of_halts {xs ys : List Char} (hxs : ∀ c ∈ xs, p c = true)
    (hys : ∀ c ∈ ys, p c = true) (hr : Halts p rest) (hr' : Halts p rest')
    (h : xs ++ rest = ys ++ rest') : xs = ys ∧ rest = rest' := by
  have hword : xs = ys := by
    have htake := congrArg (List.takeWhile p) h
    rw [List.takeWhile_append_of_pos hxs, List.takeWhile_append_of_pos hys, hr.takeWhile_eq,
      hr'.takeWhile_eq, List.append_nil, List.append_nil] at htake
    exact htake
  subst hword
  exact ⟨rfl, List.append_cancel_left h⟩

/-! ## Legible trees -/

/-- May the character stand in a name? -/
def isNameChar (c : Char) : Bool := c ≠ ' ' && c ≠ '(' && c ≠ ')'

/-- Every node is there, and every name can be told from what stands around it. -/
inductive Node.Legible : Node → Prop where
  | terminal {name : String} :
      name ≠ "" → (∀ c ∈ name.toList, isNameChar c = true) → Legible (.terminal name)
  | form {ns : List Node} : (∀ n ∈ ns, Legible n) → Legible (.form ns)

namespace Node

/-- The text of a legible node begins with a bracket exactly if it is a form, and never with
a closing one. -/
theorem Legible.spell_head {n : Node} (hn : n.Legible) (rest : List Char) :
    ∃ c cs, n.spell rest = c :: cs ∧ c ≠ ')' ∧ (c = '(' ↔ n.form?.isSome) := by
  cases hn with
  | @terminal name hne hchars =>
      cases hname : name.toList with
      | nil => exact absurd (String.toList_eq_nil_iff.mp hname) hne
      | cons c cs =>
          have hc : isNameChar c = true := hchars c (by simp [hname])
          refine ⟨c, cs ++ rest, by simp [spell, hname], ?_, ?_⟩
          · rintro rfl
            cases hc
          · constructor
            · rintro rfl
              cases hc
            · intro hform
              cases hform
  | @form ns =>
      cases ns with
      | nil => exact ⟨'(', ')' :: rest, rfl, by decide, by simp [form?]⟩
      | cons n ns => exact ⟨'(', _, rfl, by decide, by simp [form?]⟩

theorem spell_terminal_ne_form {name : String} {ns : List Node} (ha : (terminal name).Legible)
    (hb : (form ns).Legible) : (terminal name).spell rest ≠ (form ns).spell rest' := by
  intro h
  obtain ⟨c, cs, hc, -, hterminal⟩ := ha.spell_head rest
  obtain ⟨d, ds, hd, -, hform⟩ := hb.spell_head rest'
  obtain rfl : c = d := (List.cons.inj (hc.symm.trans (h.trans hd))).1
  exact absurd (hterminal.mp (hform.mpr rfl)) Bool.false_ne_true

theorem spellTail_halts (ns : List Node) (rest : List Char) :
    Halts isNameChar (spellTail ns (')' :: rest)) := by
  cases ns with
  | nil => exact .cons rfl
  | cons n ns => exact .cons rfl

mutual

/-- Two legible nodes with the same text in front of some rests are the same, and so are
the rests, if neither of these could belong to a name. -/
theorem spell_inj : ∀ (a b : Node) {rest rest' : List Char}, a.Legible → b.Legible →
    Halts isNameChar rest → Halts isNameChar rest' → a.spell rest = b.spell rest' →
    a = b ∧ rest = rest'
  | .missing, _, _, _, ha, _, _, _, _ => nomatch ha
  | _, .missing, _, _, _, hb, _, _, _ => nomatch hb
  | .terminal x, .terminal y, _, _, .terminal _ hx, .terminal _ hy, hr, hr', h => by
      rw [spell, spell] at h
      obtain ⟨hxy, hrest⟩ := append_inj_of_halts hx hy hr hr' h
      exact ⟨by rw [String.toList_inj.mp hxy], hrest⟩
  | .terminal _, .form _, _, _, ha, hb, _, _, h => absurd h (spell_terminal_ne_form ha hb)
  | .form _, .terminal _, _, _, ha, hb, _, _, h => absurd h.symm (spell_terminal_ne_form hb ha)
  | .form [], .form [], _, _, _, _, _, _, h => by
      simp only [spell, List.cons.injEq, true_and] at h
      exact ⟨rfl, h⟩
  | .form [], .form (b :: bs), _, rest', _, .form hb, _, _, h => by
      simp only [spell, List.cons.injEq, true_and] at h
      obtain ⟨d, ds, hd, hne, -⟩ := (hb b (by simp)).spell_head (spellTail bs (')' :: rest'))
      exact absurd (List.cons.inj (h.trans hd)).1.symm hne
  | .form (a :: as), .form [], rest, _, .form ha, _, _, _, h => by
      simp only [spell, List.cons.injEq, true_and] at h
      obtain ⟨c, cs, hc, hne, -⟩ := (ha a (by simp)).spell_head (spellTail as (')' :: rest))
      exact absurd (List.cons.inj (hc.symm.trans h)).1 hne
  | .form (a :: as), .form (b :: bs), rest, rest', .form ha, .form hb, _, _, h => by
      simp only [spell, List.cons.injEq, true_and] at h
      obtain ⟨rfl, htail⟩ := spell_inj a b (ha a (by simp)) (hb b (by simp))
        (spellTail_halts as rest) (spellTail_halts bs rest') h
      obtain ⟨rfl, hrest⟩ := spellTail_inj as bs (fun n hn => ha n (by simp [hn]))
        (fun n hn => hb n (by simp [hn])) htail
      exact ⟨rfl, hrest⟩

theorem spellTail_inj : ∀ (as bs : List Node) {rest rest' : List Char},
    (∀ n ∈ as, n.Legible) → (∀ n ∈ bs, n.Legible) →
    spellTail as (')' :: rest) = spellTail bs (')' :: rest') → as = bs ∧ rest = rest'
  | [], [], _, _, _, _, h => by
      simp only [spellTail, List.cons.injEq, true_and] at h
      exact ⟨rfl, h⟩
  | [], _ :: _, _, _, _, _, h => by simp [spellTail] at h
  | _ :: _, [], _, _, _, _, h => by simp [spellTail] at h
  | a :: as, b :: bs, rest, rest', ha, hb, h => by
      simp only [spellTail, List.cons.injEq, true_and] at h
      obtain ⟨rfl, htail⟩ := spell_inj a b (ha a (by simp)) (hb b (by simp))
        (spellTail_halts as rest) (spellTail_halts bs rest') h
      obtain ⟨rfl, hrest⟩ := spellTail_inj as bs (fun n hn => ha n (by simp [hn]))
        (fun n hn => hb n (by simp [hn])) htail
      exact ⟨rfl, hrest⟩

end

/-- Legible trees with the same text are the same. -/
theorem Legible.text_inj {a b : Node} (ha : a.Legible) (hb : b.Legible) (h : a.text = b.text) :
    a = b :=
  (spell_inj a b ha hb .nil .nil (String.ofList_injective h)).1

end Node

/-! ## Programs are legible -/

theorem Leaf.legible (l : Leaf) : l.node.Legible := by
  rcases l with (_ | _ | _) | (_ | _) <;> exact .terminal (by decide) (List.all_eq_true.mp rfl)

theorem Control.legible (c : Control) : (Node.terminal c.name).Legible := by
  cases c <;> exact .terminal (by decide) (List.all_eq_true.mp rfl)

mutual

theorem Operand.legible : ∀ {n : Node}, Operand n → n.Legible
  | _, .leaf l => l.legible
  | _, .program hp => hp.legible

theorem Program.legible : ∀ {a : Form}, Program a → (Node.form a).Legible
  | _, .ifElse hc ht he => .form (by
      simp [Form.ifElse, Form.ofControl, Control.legible, hc.legible, ht.legible, he.legible])
  | _, .eq ha hb => .form (by
      simp [Form.eq, Form.ofControl, Control.legible, ha.legible, hb.legible])
  | _, .prog2 ha hb => .form (by
      simp [Form.prog2, Form.ofControl, Control.legible, ha.legible, hb.legible])
  | _, .prog3 ha hb hc => .form (by
      simp [Form.prog3, Form.ofControl, Control.legible, ha.legible, hb.legible, hc.legible])

end

/-- Programs with the same text are the same. -/
theorem Program.text_inj {a b : Form} (ha : Program a) (hb : Program b) (h : a.text = b.text) :
    a = b :=
  Node.form.inj (ha.legible.text_inj hb.legible h)

/-! ## The text as a key -/

theorem Node.legible_of_validate {n : Node} (h : n.validate = .ok ()) : n.Legible := by
  obtain ⟨a, rfl, ha⟩ := Node.validate_eq_ok_iff.mp h
  exact ha.legible

theorem Node.Legible.text_eq_iff {a b : Node} (ha : a.Legible) (hb : b.Legible) :
    a.text = b.text ↔ a.same b = true := by
  rw [Node.same_eq_true]
  constructor
  · exact ha.text_inj hb
  · rintro rfl
    rfl

/-- The text tells legible trees apart just as the comparison does, so it is a key for the trees
that validation accepts. -/
theorem Node.text_identifies :
    (∀ a b : Node, a.Legible → b.Legible → (a.text = b.text ↔ a.same b = true)) ∧
    ∀ a b : Node, a.validate = .ok () → b.validate = .ok () →
      (a.text = b.text ↔ a.same b = true) := by
  refine ⟨fun a b ha hb => ha.text_eq_iff hb, fun a b ha hb => ?_⟩
  exact (legible_of_validate ha).text_eq_iff (legible_of_validate hb)

/-- Two trees that differ in their brackets only, and two programs that differ in the order of
their operands only. -/
theorem Node.text_identifies_brackets :
    let left : Node := Leaf.node (.move .left)
    let distX : Node := Leaf.node (.sense .distX)
    let a : Node := .form [left, .form []]
    let b : Node := .form [.form [left]]
    let p : Node := .form (Form.eq left distX)
    let q : Node := .form (Form.eq distX left)
    (a.Legible ∧ b.Legible ∧ (a.text = b.text ↔ a.same b = true)) ∧
    p.validate = .ok () ∧ q.validate = .ok () ∧ (p.text = q.text ↔ p.same q = true) := by
  intro left distX a b p q
  have hleft : left.Legible := Leaf.legible (.move .left)
  have ha : a.Legible := .form (by simp [hleft, Legible.form])
  have hb : b.Legible := .form (by simp [hleft, Legible.form])
  have hp : p.validate = .ok () := validate_eq_ok_iff.mpr ⟨_, rfl, .eq (.leaf _) (.leaf _)⟩
  have hq : q.validate = .ok () := validate_eq_ok_iff.mpr ⟨_, rfl, .eq (.leaf _) (.leaf _)⟩
  exact ⟨⟨ha, hb, text_identifies.1 a b ha hb⟩, hp, hq, text_identifies.2 p q hp hq⟩

end Stepwise
