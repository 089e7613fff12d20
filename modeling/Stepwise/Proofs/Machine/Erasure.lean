import Stepwise.Proofs.Machine.Overlay

/-!
# A trace without its marks is the program

A trace shows the program with marks and annotations laid over it.  `Trace.unmarked` takes them
out of a text, and it knows nothing of pictures or programs.  It deletes the sign `@` and the
square brackets.  Where the text goes on with a value, a blank and an opening brace, it deletes
these and later the brace that closes them.  Braces are matched with a stack, which says for
each open brace whether it belongs to an annotation.

For the text of a picture the erasure goes node by node.  A name has no value in front of a brace
inside it, so it stays (`Trace.erase_word`).  A decoration is deleted together with its end
(`Trace.erase_around`).  What is left is the picture without decorations
(`Picture.erase_render`), and that of a machine is its program.

The sign `@` stands once for every marked node (`Picture.count_render`).  In the innermost
frame one child is marked, and in every other frame the one marked node is inside the child at
the cursor (`Frame.Nest.marks_picture`).
-/

namespace Stepwise

/-! ## Erasing annotations from a text -/

namespace Trace

/-- Is this a tilde or a decimal integer? -/
def isValue : List Char → Bool
  | ['~'] => true
  | '-' :: digits => !digits.isEmpty && digits.all Char.isDigit
  | digits => !digits.isEmpty && digits.all Char.isDigit

/-- What comes behind the front of an annotation, a value with a blank and a brace, if the text
begins with one. -/
def behindValue? (cs : List Char) : Option (List Char) :=
  match cs.dropWhile (· ≠ ' ') with
  | ' ' :: '\x7b' :: rest => if isValue (cs.takeWhile (· ≠ ' ')) then some rest else none
  | _ => none

theorem plain_of_isValue {w : List Char} (h : isValue w = true) : ∀ c ∈ w, isPlain c = true := by
  have hdigits : ∀ {ds : List Char}, (!ds.isEmpty && ds.all Char.isDigit) = true →
      ∀ c ∈ ds, isPlain c = true := by
    intro ds hds c hc
    rw [Bool.and_eq_true, List.all_eq_true] at hds
    simp [isPlain, Char.isAlphanum, hds.2 c hc]
  unfold isValue at h
  split at h
  · simp [isPlain]
  · intro c hc
    rcases List.mem_cons.mp hc with rfl | hc
    · rfl
    · exact hdigits h c hc
  · exact hdigits h

theorem behindValue?_eq_some_iff {cs rest : List Char} :
    behindValue? cs = some rest ↔ ∃ w, isValue w = true ∧ cs = w ++ ' ' :: '\x7b' :: rest := by
  unfold behindValue?
  constructor
  · intro h
    split at h
    next r hdrop =>
        split at h
        next hvalue =>
            cases h
            exact ⟨_, hvalue, by rw [← hdrop, List.takeWhile_append_dropWhile]⟩
        next => cases h
    next => cases h
  · rintro ⟨w, hvalue, rfl⟩
    have hword : ∀ c ∈ w, decide (c ≠ ' ') = true := by
      intro c hc
      have hplain := plain_of_isValue hvalue c hc
      simp only [ne_eq, decide_eq_true_eq]
      rintro rfl
      cases hplain
    rw [List.dropWhile_append_of_pos hword, List.takeWhile_append_of_pos hword]
    simp [hvalue]

theorem length_behindValue?_lt {cs rest : List Char} (h : behindValue? cs = some rest) :
    rest.length < cs.length := by
  obtain ⟨w, -, rfl⟩ := behindValue?_eq_some_iff.mp h
  simp
  omega

/-- Is this one of the characters that mark a node? -/
def isMark (c : Char) : Bool := c == '@' || c == '[' || c == ']'

/-- What is left of a character, and which braces are open behind it.  An open brace is listed as
`true` if it belongs to an annotation. -/
def eraseChar (opened : List Bool) (c : Char) : List Char × List Bool :=
  if isMark c then ([], opened)
  else if c = '\x7b' then ([c], false :: opened)
  else if c = '\x7d' then (if opened.headD false then [] else [c], opened.tail)
  else ([c], opened)

/-- A text without marks and annotations. -/
def erase (opened : List Bool) (cs : List Char) : List Char :=
  match cs with
  | [] => []
  | c :: cs =>
    match _h : behindValue? (c :: cs) with
    | some rest => erase (true :: opened) rest
    | none => (eraseChar opened c).1 ++ erase (eraseChar opened c).2 cs
termination_by cs.length
decreasing_by
  · exact length_behindValue?_lt _h
  · exact Nat.lt_succ_self _

/-- A trace without marks and annotations. -/
def unmarked (trace : String) : String := String.ofList (erase [] trace.toList)

variable {opened : List Bool} {c : Char} {cs rest : List Char}

theorem erase_nil : erase opened [] = [] := by
  rw [erase]

theorem erase_cons (h : behindValue? (c :: cs) = none) :
    erase opened (c :: cs) = (eraseChar opened c).1 ++ erase (eraseChar opened c).2 cs := by
  rw [erase]
  split
  next _ h' => rw [h] at h'; cases h'
  next => rfl

/-! ## What is deleted and what is left -/

theorem isValue_text (v : Value) : isValue v.text.toList = true := by
  cases v with
  | none => rfl
  | some n =>
      have hnat : ∀ k : Nat, k.repr.toList ≠ [] ∧ ∀ c ∈ k.repr.toList, c.isDigit = true := by
        intro k
        rw [Nat.repr_eq_ofList_toDigits, String.toList_ofList]
        exact ⟨Nat.toDigits_ne_nil, fun c hc =>
          Nat.isDigit_of_mem_toDigits (by decide) (by decide) hc⟩
      have hnumeral : ∀ {ds : List Char}, ds ≠ [] → (∀ c ∈ ds, c.isDigit = true) →
          isValue ds = true ∧ isValue ('-' :: ds) = true := by
        intro ds hne hds
        have hall : (!ds.isEmpty && ds.all Char.isDigit) = true := by
          simpa [hne] using hds
        refine ⟨?_, hall⟩
        unfold isValue
        split
        next => rfl
        next digits => exact absurd (hds '-' (by simp)) (by decide)
        next => exact hall
      show isValue n.toInt.repr.toList = true
      cases n.toInt with
      | ofNat k => exact (hnumeral (hnat k).1 (hnat k).2).1
      | negSucc k =>
          have htext : (Int.negSucc k).repr.toList = '-' :: (k + 1).repr.toList := by
            simp [Int.repr]
          rw [htext]
          exact (hnumeral (hnat (k + 1)).1 (hnat (k + 1)).2).2

theorem erase_value (v : Value) :
    erase opened (v.text.toList ++ ' ' :: '\x7b' :: rest) = erase (true :: opened) rest := by
  have hbehind : behindValue? (v.text.toList ++ ' ' :: '\x7b' :: rest) = some rest :=
    behindValue?_eq_some_iff.mpr ⟨_, isValue_text v, rfl⟩
  cases hcs : v.text.toList ++ ' ' :: '\x7b' :: rest with
  | nil => simp at hcs
  | cons c cs =>
      rw [hcs] at hbehind
      rw [erase]
      split
      next r hr =>
          rw [hbehind] at hr
          cases hr
          rfl
      next hr => rw [hbehind] at hr; cases hr

/-- No annotation begins with a character that is not part of a value. -/
theorem behindValue?_eq_none (h : isPlain c = false) : behindValue? (c :: cs) = none := by
  cases hb : behindValue? (c :: cs) with
  | none => rfl
  | some rest =>
      obtain ⟨w, hw, hcs⟩ := behindValue?_eq_some_iff.mp hb
      cases w with
      | nil => cases hw
      | cons c' w =>
          obtain ⟨rfl, -⟩ := List.cons.inj hcs
          rw [plain_of_isValue hw c (by simp)] at h
          cases h

theorem erase_symbol (h : isPlain c = false) :
    erase opened (c :: cs) = (eraseChar opened c).1 ++ erase (eraseChar opened c).2 cs :=
  erase_cons (behindValue?_eq_none h)

theorem erase_mark (h : isMark c = true) : erase opened (c :: cs) = erase opened cs := by
  simp only [isMark, Bool.or_eq_true, beq_iff_eq] at h
  rcases h with (rfl | rfl) | rfl <;> exact erase_symbol rfl

theorem erase_brace_end :
    erase (true :: opened) ('\x7d' :: cs) = erase opened cs := erase_symbol rfl

/-- Is this a character of which the lines of a program are made, apart from its names? -/
def isLayout (c : Char) : Bool := c == '(' || c == ')' || c == ' ' || c == '\n'

theorem erase_layout (h : isLayout c = true) : erase opened (c :: cs) = c :: erase opened cs := by
  simp only [isLayout, Bool.or_eq_true, beq_iff_eq] at h
  rcases h with ((rfl | rfl) | rfl) | rfl <;> exact erase_symbol rfl

theorem erase_indented (t : Nat) :
    erase opened (indented t rest) = indented t (erase opened rest) := by
  unfold indented
  induction 2 * t with
  | zero => rfl
  | succ k ih =>
      rw [List.replicate_succ, List.cons_append, erase_layout rfl, ih]
      rfl

theorem erase_closing (t : Nat) :
    erase opened (closing t rest) = closing t (erase opened rest) := by
  rw [closing, erase_layout rfl, erase_indented, erase_layout rfl]
  rfl

/-- A word that ends here is not followed by a brace. -/
theorem behindValue?_word (hcs : ∀ c ∈ cs, isPlain c = true) (hr : Ends rest) :
    behindValue? (cs ++ rest) = none := by
  cases hb : behindValue? (cs ++ rest) with
  | none => rfl
  | some r =>
      obtain ⟨w, hw, h⟩ := behindValue?_eq_some_iff.mp hb
      -- Both texts begin with a plain word, and a blank is not what ends the first.
      obtain ⟨-, hrest⟩ := append_inj_of_halts hcs (plain_of_isValue hw) hr.halts (.cons rfl) h
      rcases hr ' ' (by rw [hrest]; rfl) with h | h | h <;> cases h

theorem eraseChar_plain (h : isPlain c = true) : eraseChar opened c = ([c], opened) := by
  have hne : ∀ {d : Char}, isPlain d = false → c ≠ d := by
    rintro d hd rfl
    rw [h] at hd
    cases hd
  have hmark : isMark c = false := by
    simp [isMark, hne (d := '@') rfl, hne (d := '[') rfl, hne (d := ']') rfl]
  simp [eraseChar, hmark, hne (d := '\x7b') rfl, hne (d := '\x7d') rfl]

theorem erase_word {w : List Char} (hw : ∀ c ∈ w, isPlain c = true) (hr : Ends rest) :
    erase opened (w ++ rest) = w ++ erase opened rest := by
  induction w with
  | nil => rfl
  | cons c w ih =>
      obtain ⟨hc, hw'⟩ := List.forall_mem_cons.mp hw
      have hnone : behindValue? (c :: (w ++ rest)) = none := behindValue?_word hw hr
      rw [List.cons_append, erase_cons hnone, eraseChar_plain hc, ih hw']
      rfl

/-- A decoration is deleted, with its end behind the node. -/
theorem erase_around {d : Decoration} {body bare : List Char → List Char}
    (hbody : ∀ {opened r}, Ends r → erase opened (body r) = bare (erase opened r))
    (hr : Ends rest) : erase opened (d.around body rest) = bare (erase opened rest) := by
  match d with
  | ⟨false, none⟩ => exact hbody hr
  | ⟨false, some v⟩ =>
      rw [Decoration.around, erase_value, hbody .brace, erase_brace_end]
  | ⟨true, none⟩ =>
      rw [Decoration.around, erase_mark rfl, erase_mark rfl, hbody .mark, erase_mark rfl]
  | ⟨true, some v⟩ =>
      rw [Decoration.around, erase_mark rfl, erase_value, hbody .brace, erase_brace_end]

end Trace

/-! ## Erasing the decorations of a picture -/

namespace Picture

open Trace

mutual

/-- The text of a picture without marks and annotations is that of its tree. -/
theorem erase_render : ∀ (p : Picture) {t : Nat} {opened : List Bool} {rest : List Char},
    p.Plain → Ends rest →
    erase opened (p.render t rest) = (ofNode p.node).render t (erase opened rest)
  | .leaf d name, _, _, _, .leaf _ hname, hr => by
      rw [render]
      exact erase_around (fun hr => erase_word hname hr) hr
  | .form d ps, t, _, _, .form hps, hr => by
      rw [render]
      refine erase_around (fun _ => ?_) hr
      rw [erase_layout rfl, erase_renderAll ps hps]
      rfl

theorem erase_renderAll : ∀ (ps : List Picture) {t : Nat} {opened : List Bool}
    {rest : List Char}, (∀ p ∈ ps, p.Plain) →
    erase opened (renderAll (t + 1) ps (closing t rest)) =
      renderAll (t + 1) (ofNodes (nodes ps)) (closing t (erase opened rest))
  | [], _, _, _, _ => erase_closing _
  | p :: ps, t, _, rest, hps => by
      rw [renderAll, erase_render p (hps p (by simp)) (renderTail_ends (t + 1) t ps rest),
        erase_renderTail ps fun p hp => hps p (by simp [hp])]
      rfl

theorem erase_renderTail : ∀ (ps : List Picture) {t : Nat} {opened : List Bool}
    {rest : List Char}, (∀ p ∈ ps, p.Plain) →
    erase opened (renderTail (t + 1) ps (closing t rest)) =
      renderTail (t + 1) (ofNodes (nodes ps)) (closing t (erase opened rest))
  | [], _, _, _, _ => erase_closing _
  | p :: ps, t, _, rest, hps => by
      rw [renderTail, erase_layout rfl, erase_indented,
        erase_render p (hps p (by simp)) (renderTail_ends (t + 1) t ps rest),
        erase_renderTail ps fun p hp => hps p (by simp [hp])]
      rfl

end

/-! ## Counting marks -/

mutual

/-- The number of marked nodes. -/
def marks : Picture → Nat
  | .leaf d _ => d.marked.toNat
  | .form d ps => d.marked.toNat + marksAll ps

def marksAll : List Picture → Nat
  | [] => 0
  | p :: ps => marks p + marksAll ps

end

theorem count_word {w : List Char} (hw : ∀ c ∈ w, isPlain c = true) (rest : List Char) :
    (w ++ rest).count '@' = rest.count '@' := by
  have hnot : '@' ∉ w := fun hmem => absurd (hw '@' hmem) (by decide)
  rw [List.count_append, List.count_eq_zero.mpr hnot, Nat.zero_add]

theorem count_indented (t : Nat) (rest : List Char) :
    (indented t rest).count '@' = rest.count '@' := by
  simp [indented, List.count_replicate]

theorem count_closing (t : Nat) (rest : List Char) :
    (closing t rest).count '@' = rest.count '@' := by
  simp [closing, count_indented]

theorem count_around {d : Decoration} {body : List Char → List Char} {n : Nat}
    (hbody : ∀ r, (body r).count '@' = n + r.count '@') (rest : List Char) :
    (d.around body rest).count '@' = d.marked.toNat + n + rest.count '@' := by
  match d with
  | ⟨false, none⟩ => simp [Decoration.around, hbody]
  | ⟨false, some v⟩ => simp [Decoration.around, count_word v.text_plain, hbody]
  | ⟨true, none⟩ => simp [Decoration.around, hbody]; omega
  | ⟨true, some v⟩ => simp [Decoration.around, count_word v.text_plain, hbody]; omega

mutual

/-- The sign `@` stands once for every marked node. -/
theorem count_render : ∀ (p : Picture) (t : Nat) (rest : List Char), p.Plain →
    (p.render t rest).count '@' = p.marks + rest.count '@'
  | .leaf d name, _, rest, .leaf _ hname => by
      rw [render, count_around (n := 0) fun r => by rw [count_word hname, Nat.zero_add], marks]
      rfl
  | .form d ps, t, rest, .form hps => by
      rw [render, count_around (n := marksAll ps) fun r => ?_, marks]
      rw [List.count_cons_of_ne (by decide), count_renderAll ps (t + 1) _ hps, count_closing]

theorem count_renderAll : ∀ (ps : List Picture) (t : Nat) (rest : List Char),
    (∀ p ∈ ps, p.Plain) → (renderAll t ps rest).count '@' = marksAll ps + rest.count '@'
  | [], _, _, _ => (Nat.zero_add _).symm
  | p :: ps, t, rest, hps => by
      rw [renderAll, count_render p t _ (hps p (by simp)),
        count_renderTail ps t rest fun p hp => hps p (by simp [hp]), marksAll, Nat.add_assoc]

theorem count_renderTail : ∀ (ps : List Picture) (t : Nat) (rest : List Char),
    (∀ p ∈ ps, p.Plain) → (renderTail t ps rest).count '@' = marksAll ps + rest.count '@'
  | [], _, _, _ => (Nat.zero_add _).symm
  | p :: ps, t, rest, hps => by
      rw [renderTail, List.count_cons_of_ne (by decide), count_indented,
        count_render p t _ (hps p (by simp)),
        count_renderTail ps t rest fun p hp => hps p (by simp [hp]), marksAll, Nat.add_assoc]

end

mutual

theorem marks_ofNode : ∀ n : Node, (ofNode n).marks = 0
  | .missing => rfl
  | .terminal _ => rfl
  | .form ns => by
      rw [ofNode, marks, marksAll_ofNodes ns]
      rfl

theorem marksAll_ofNodes : ∀ ns : List Node, marksAll (ofNodes ns) = 0
  | [] => rfl
  | n :: ns => by rw [ofNodes, marksAll, marks_ofNode n, marksAll_ofNodes ns]

end

theorem marks_decorated (d : Decoration) (n : Node) :
    ((ofNode n).decorated d).marks = d.marked.toNat := by
  have hbare := marks_ofNode n
  cases n with
  | missing => rfl
  | terminal name => rfl
  | form ns =>
      rw [ofNode, marks] at hbare
      rw [ofNode, decorated, marks]
      omega

end Picture

namespace Frame

variable {f : Frame} {fs : List Frame} {inner : Option Picture}

/-- One node is marked at the cursor and none in any other child. -/
theorem marks_childPicture (h : ∀ p, inner = some p → p.marks = 1) (k : Nat) (n : Node) :
    (f.childPicture inner k n).marks = if f.marked = k then 1 else 0 := by
  by_cases hk : f.marked = k
  · cases inner with
    | none => simp [childPicture, Picture.marks_decorated, decoration, hk]
    | some p => simp [childPicture, hk, h p rfl]
  · cases inner with
    | none => simp [childPicture, Picture.marks_decorated, decoration, hk]
    | some p => simp [childPicture, Picture.marks_decorated, decoration, hk]

theorem marksAll_childPictures (h : ∀ p, inner = some p → p.marks = 1) (k : Nat)
    (ns : List Node) :
    Picture.marksAll (f.childPictures inner k ns) =
      if k ≤ f.marked ∧ f.marked < k + ns.length then 1 else 0 := by
  induction ns generalizing k with
  | nil =>
      have hnone : ¬ (k ≤ f.marked ∧ f.marked < k + 0) := by omega
      rw [List.length_nil, if_neg hnone]
      rfl
  | cons n ns ih =>
      rw [childPictures_cons, Picture.marksAll, marks_childPicture h, ih, List.length_cons]
      split <;> split <;> split <;> omega

theorem marks_picture (h : ∀ p, inner = some p → p.marks = 1)
    (hlt : f.marked < f.scope.length) : (f.picture inner).marks = 1 := by
  rw [picture, Picture.marks, marksAll_childPictures h]
  simp [Decoration.bare, hlt]

/-- In the picture of nested frames one node is marked. -/
theorem Nest.marks_picture (h : Nest (f :: fs)) : (f.picture (pictureOf fs)).marks = 1 := by
  have hlt : ∀ {f fs}, Nest (f :: fs) → f.marked < f.scope.length := by
    intro f fs h
    obtain ⟨name, ns, hcons, -⟩ := h.head.2.eq_cons
    exact h.head.1.marked_lt (by simp [hcons])
  induction fs generalizing f with
  | nil => exact Frame.marks_picture (fun p hp => nomatch hp) (hlt h)
  | cons g fs ih =>
      -- The child at the cursor is the picture of the frames further in.
      refine Frame.marks_picture (fun p hp => ?_) (hlt h)
      cases hp
      exact ih h.tail

end Frame

/-! ## Traces -/

namespace Machine

variable {σ : Type} {m : Machine σ}

theorem Sound.marks_picture (h : m.Sound) : m.picture.marks = 1 := by
  have hnest := h.nest
  unfold picture
  cases hframes : m.stack.outermostFirst with
  | nil => exact Picture.marks_decorated ⟨true, none⟩ (.form m.program)
  | cons f fs =>
      rw [hframes] at hnest
      exact hnest.marks_picture

theorem Sound.unmarked_trace (h : m.Sound) :
    Trace.unmarked m.trace = String.ofList (Node.layout 0 (.form m.program) []) := by
  obtain ⟨hplain, hnode⟩ := h.picture_plain_node
  rw [h.trace_eq, Trace.unmarked, String.toList_ofList, Picture.erase_render _ hplain .nil, hnode,
    Trace.erase_nil, h.program.depicted.render]

/-- A trace is the program with one cursor and some annotations laid over it.  At any moment of the
evaluation of a valid program the sign `@` stands in it once, and without marks and annotations
it is the layout of the program, line by line. -/
theorem trace_overlays (p : Form) (hp : p.validate = .ok ()) (env : Environment σ) (s : σ)
    (ops : List Operation) :
    ((Machine.new p s).performAll env ops).trace.toList.count '@' = 1 ∧
    Trace.unmarked ((Machine.new p s).performAll env ops).trace =
      String.ofList (Node.layout 0 (.form p) []) := by
  have hm := performAll_sound (Form.validate_eq_ok_iff.mp hp) env s ops
  have hprogram : ((Machine.new p s).performAll env ops).program = p :=
    (performAll_coherent p s ops).1
  constructor
  · rw [hm.trace_eq, String.toList_ofList, Picture.count_render _ _ _ hm.picture_plain_node.1,
      hm.marks_picture]
    rfl
  · rw [hm.unmarked_trace, hprogram]

/-- The duelist has read the first distance and is about to read the second. -/
theorem trace_overlays_duelist :
    let m := (Machine.new duelist (⟨{}, [], 0, 0, rfl⟩ : Scripted)).performAll scriptedGame
      [.step, .step, .step]
    m.trace = "(if\n  (eq\n    0 \x7bdist-x\x7d\n    @[dist-y]\n  )\n" ++
      "  shoot\n  (prog2\n    left\n    right\n  )\n)" ∧
    m.trace.toList.count '@' = 1 ∧
    Trace.unmarked m.trace = "(if\n  (eq\n    dist-x\n    dist-y\n  )\n" ++
      "  shoot\n  (prog2\n    left\n    right\n  )\n)" := by
  intro m
  obtain ⟨hcount, htext⟩ := trace_overlays duelist duelist_valid scriptedGame
    ⟨{}, [], 0, 0, rfl⟩ [.step, .step, .step]
  exact ⟨by rfl, hcount, htext.trans (by rfl)⟩

end Machine

end Stepwise
