import Mathlib
import Stepwise.Machine.Trace
import Stepwise.Proofs.Tree.Reading

/-!
# Pictures of an evaluation

A trace is a tree, written over several lines, in which every node has a *decoration*: it may
be marked, as what comes next, and it may have a value in front.  `Picture` is such a tree and
`Picture.render` its text.  An operand that has not been reached and a form whose frame lies
inside another look alike in a trace.  In a picture both are a node without a decoration,
and what is inside tells them apart.

The text of a picture can be read in one way (`Picture.render_inj`), if its names are words
(`Picture.Plain`).  A reader meets the mark first, then the value with its brace, then a name
or a round bracket.  After the bracket every child but the first has a line of its own, and the
line of the closing bracket is indented by less.
-/

namespace Stepwise

/-! ## Words -/

/-- May the character stand in a word of a trace, which is a name or a value? -/
def isPlain (c : Char) : Bool := c.isAlphanum || c == '-' || c == '~'

namespace Value

theorem plain_of_mem_repr (n : Int) : ∀ c ∈ n.repr.toList, (c.isDigit || c == '-') = true := by
  have hnat : ∀ k : Nat, ∀ c ∈ k.repr.toList, c.isDigit = true := by
    intro k c hc
    rw [Nat.repr_eq_ofList_toDigits, String.toList_ofList] at hc
    exact Nat.isDigit_of_mem_toDigits (by decide) (by decide) hc
  intro c hc
  cases n with
  | ofNat k => simp [hnat k c hc]
  | negSucc k =>
      have hc' : c = '-' ∨ c ∈ (k + 1).repr.toList := by simpa [Int.repr] using hc
      rcases hc' with rfl | hc'
      · rfl
      · simp [hnat _ c hc']

theorem text_plain (v : Value) : ∀ c ∈ v.text.toList, isPlain c = true := by
  intro c hc
  cases v with
  | none =>
      obtain rfl : c = '~' := by simpa [text] using hc
      rfl
  | some n =>
      have h := plain_of_mem_repr n.toInt c hc
      rcases Bool.or_eq_true _ _ ▸ h with hdigit | hminus
      · simp [isPlain, Char.isAlphanum, hdigit]
      · simp [isPlain, hminus]

/-- Different values have different texts. -/
theorem text_inj {v w : Value} (h : v.text = w.text) : v = w := by
  have hnone : ∀ n : Int64, "~" ≠ text (some n) := by
    intro n hn
    have hmem : '~' ∈ n.toInt.repr.toList := by
      have hn' : "~" = n.toInt.repr := hn
      rw [← hn']
      decide
    exact absurd (plain_of_mem_repr n.toInt '~' hmem) (by decide)
  match v, w with
  | none, none => rfl
  | none, some n => exact absurd h (hnone n)
  | some n, none => exact absurd h.symm (hnone n)
  | some n, some k =>
      have hint : n.toInt = k.toInt := Int.repr_injective h
      rw [Int64.toInt_inj.mp hint]

end Value

/-- The text is over, or something ends here: a line, a mark or a brace. -/
def Ends (rest : List Char) : Prop :=
  ∀ c, rest.head? = some c → c = '\n' ∨ c = ']' ∨ c = '\x7d'

namespace Ends

variable {rest : List Char}

theorem nil : Ends [] := by
  intro c hc
  cases hc

theorem line : Ends ('\n' :: rest) := by
  intro c hc
  cases hc
  exact .inl rfl

theorem mark : Ends (']' :: rest) := by
  intro c hc
  cases hc
  exact .inr (.inl rfl)

theorem brace : Ends ('\x7d' :: rest) := by
  intro c hc
  cases hc
  exact .inr (.inr rfl)

theorem halts (h : Ends rest) : Halts isPlain rest := by
  intro c hc
  rcases h c hc with rfl | rfl | rfl <;> rfl

end Ends

/-! ## Decorations -/

/-- What a trace adds to a node. -/
structure Decoration where
  /-- Is it what comes next? -/
  marked : Bool
  /-- The value in front, if the node shows one.  It may be that of an empty slot. -/
  value? : Option Value
deriving DecidableEq

namespace Decoration

/-- Nothing is added. -/
def bare : Decoration := ⟨false, none⟩

/-- The text of a node with its decoration, where `body` writes the node itself. -/
def around (d : Decoration) (body : List Char → List Char) (rest : List Char) : List Char :=
  match d with
  | ⟨false, none⟩ => body rest
  | ⟨false, some v⟩ => v.text.toList ++ ' ' :: '\x7b' :: body ('\x7d' :: rest)
  | ⟨true, none⟩ => '@' :: '[' :: body (']' :: rest)
  | ⟨true, some v⟩ => '@' :: (v.text.toList ++ ' ' :: '\x7b' :: body ('\x7d' :: rest))

/-- What can be seen where the text of a node begins: no end of a line, no mark, and no value
in front of a blank. -/
structure Opens (text : List Char) : Prop where
  inline : text.head? ≠ some '\n'
  unmarked : text.head? ≠ some '@'
  unvalued : (text.dropWhile isPlain).head? ≠ some ' '

/-- Does a text begin with a mark? -/
def showsMark (text : List Char) : Bool := text.head? == some '@'

/-- Does a text begin with a value, behind a mark if there is one? -/
def showsValue (text : List Char) : Bool :=
  ((text.dropWhile (· == '@')).dropWhile isPlain).head? == some ' '

theorem dropWhile_value (v : Value) (rest : List Char) :
    (v.text.toList ++ ' ' :: rest).dropWhile isPlain = ' ' :: rest := by
  rw [List.dropWhile_append_of_pos v.text_plain]
  rfl

theorem value_head (v : Value) (rest : List Char) {c : Char} (hc : isPlain c = false)
    (hblank : c ≠ ' ') : (v.text.toList ++ ' ' :: rest).head? ≠ some c := by
  cases hv : v.text.toList with
  | nil => simpa using hblank.symm
  | cons c' cs =>
      have hc' : isPlain c' = true := v.text_plain c' (by simp [hv])
      rintro ⟨rfl⟩
      rw [hc] at hc'
      cases hc'

theorem dropWhile_mark {text : List Char} (h : text.head? ≠ some '@') :
    text.dropWhile (· == '@') = text := by
  cases text with
  | nil => rfl
  | cons c cs =>
      have hc : c ≠ '@' := fun hc => h (by rw [hc]; rfl)
      simp [hc]

theorem showsValue_value (v : Value) (rest : List Char) :
    showsValue (v.text.toList ++ ' ' :: rest) = true := by
  have h : (v.text.toList ++ ' ' :: rest).head? ≠ some '@' := value_head v rest rfl (by decide)
  rw [showsValue, dropWhile_mark h, dropWhile_value]
  rfl

theorem showsValue_mark (text : List Char) : showsValue ('@' :: text) = showsValue text := by
  rw [showsValue, List.dropWhile_cons_of_pos rfl, showsValue]

variable {d d' : Decoration} {body body' : List Char → List Char} {rest rest' : List Char}

theorem showsMark_around (hb : ∀ r, Ends r → Opens (body r)) (hr : Ends rest) :
    showsMark (d.around body rest) = d.marked := by
  match d with
  | ⟨false, none⟩ => simpa [around, showsMark] using (hb rest hr).unmarked
  | ⟨false, some v⟩ =>
      have h := value_head v ('\x7b' :: body ('\x7d' :: rest)) (c := '@') rfl (by decide)
      simpa [around, showsMark] using h
  | ⟨true, none⟩ => rfl
  | ⟨true, some v⟩ => rfl

theorem showsValue_around (hb : ∀ r, Ends r → Opens (body r)) (hr : Ends rest) :
    showsValue (d.around body rest) = d.value?.isSome := by
  match d with
  | ⟨false, none⟩ =>
      have h := hb rest hr
      simpa [around, showsValue, dropWhile_mark h.unmarked] using h.unvalued
  | ⟨false, some v⟩ => exact showsValue_value v _
  | ⟨true, none⟩ => rfl
  | ⟨true, some v⟩ => exact (showsValue_mark _).trans (showsValue_value v _)

/-- A decoration can be read in one way, if what is decorated can. -/
theorem around_inj {P : Prop} (hb : ∀ r, Ends r → Opens (body r))
    (hb' : ∀ r, Ends r → Opens (body' r))
    (hbody : ∀ {r r'}, Ends r → Ends r' → body r = body' r' → P ∧ r = r')
    (hr : Ends rest) (hr' : Ends rest') (h : d.around body rest = d'.around body' rest') :
    d = d' ∧ P ∧ rest = rest' := by
  have hmarked : d.marked = d'.marked := by
    rw [← showsMark_around hb hr, ← showsMark_around hb' hr', h]
  have hvalued : d.value?.isSome = d'.value?.isSome := by
    rw [← showsValue_around hb hr, ← showsValue_around hb' hr', h]
  -- A value is a word in front of a blank.
  have hvalue : ∀ {v w : Value} {r r' : List Char}, v.text.toList ++ ' ' :: '\x7b' :: r =
      w.text.toList ++ ' ' :: '\x7b' :: r' → v = w ∧ r = r' := by
    intro v w r r' h
    obtain ⟨htext, hrest⟩ := append_inj_of_halts v.text_plain w.text_plain (.cons rfl) (.cons rfl) h
    exact ⟨Value.text_inj (String.toList_inj.mp htext), by simpa using hrest⟩
  match d, d' with
  | ⟨false, none⟩, ⟨false, none⟩ => exact ⟨rfl, hbody hr hr' h⟩
  | ⟨true, none⟩, ⟨true, none⟩ =>
      simp only [around, List.cons.injEq, true_and] at h
      obtain ⟨hP, hrest⟩ := hbody .mark .mark h
      exact ⟨rfl, hP, (List.cons.inj hrest).2⟩
  | ⟨false, some v⟩, ⟨false, some w⟩ =>
      obtain ⟨rfl, hrest⟩ := hvalue h
      obtain ⟨hP, hrest⟩ := hbody .brace .brace hrest
      exact ⟨rfl, hP, (List.cons.inj hrest).2⟩
  | ⟨true, some v⟩, ⟨true, some w⟩ =>
      obtain ⟨rfl, hrest⟩ := hvalue (List.cons.inj h).2
      obtain ⟨hP, hrest⟩ := hbody .brace .brace hrest
      exact ⟨rfl, hP, (List.cons.inj hrest).2⟩
  | ⟨false, _⟩, ⟨true, _⟩ => cases hmarked
  | ⟨true, _⟩, ⟨false, _⟩ => cases hmarked
  | ⟨_, none⟩, ⟨_, some _⟩ => cases hvalued
  | ⟨_, some _⟩, ⟨_, none⟩ => cases hvalued

end Decoration

/-! ## Pictures -/

/-- A tree with decorations. -/
inductive Picture where
  | leaf (d : Decoration) (name : String)
  | form (d : Decoration) (children : List Picture)

/-- The last line of a form, at level `t`. -/
def closing (t : Nat) (rest : List Char) : List Char := '\n' :: indented t (')' :: rest)

namespace Picture

mutual

/-- The text of a picture at indentation level `t`, in front of `rest`. -/
def render : Nat → Picture → List Char → List Char
  | _, .leaf d name, rest => d.around (fun r => name.toList ++ r) rest
  | t, .form d ps, rest => d.around (fun r => '(' :: renderAll (t + 1) ps (closing t r)) rest

/-- The children of a form.  The first stands behind the bracket. -/
def renderAll : Nat → List Picture → List Char → List Char
  | _, [], rest => rest
  | t, p :: ps, rest => render t p (renderTail t ps rest)

/-- The later children, each on a line of its own. -/
def renderTail : Nat → List Picture → List Char → List Char
  | _, [], rest => rest
  | t, p :: ps, rest => '\n' :: indented t (render t p (renderTail t ps rest))

end

def decoration : Picture → Decoration
  | .leaf d _ => d
  | .form d _ => d

def decorated (d : Decoration) : Picture → Picture
  | .leaf _ name => .leaf d name
  | .form _ ps => .form d ps

/-- The text of a picture without the decoration at its root. -/
def body (t : Nat) : Picture → List Char → List Char
  | .leaf _ name, rest => name.toList ++ rest
  | .form _ ps, rest => '(' :: renderAll (t + 1) ps (closing t rest)

theorem render_eq (t : Nat) (p : Picture) (rest : List Char) :
    p.render t rest = p.decoration.around (p.body t) rest := by
  cases p <;> rw [render] <;> rfl

@[simp] theorem decoration_decorated (d : Decoration) (p : Picture) :
    (p.decorated d).decoration = d := by
  cases p <;> rfl

theorem render_decorated (d : Decoration) (t : Nat) (p : Picture) (rest : List Char) :
    (p.decorated d).render t rest = d.around (p.body t) rest := by
  cases p <;> rw [decorated, render] <;> rfl

/-- Every name in the picture is a word. -/
inductive Plain : Picture → Prop where
  | leaf {d : Decoration} {name : String} :
      name ≠ "" → (∀ c ∈ name.toList, isPlain c = true) → Plain (.leaf d name)
  | form {d : Decoration} {ps : List Picture} : (∀ p ∈ ps, Plain p) → Plain (.form d ps)

theorem Plain.decorated {p : Picture} (h : p.Plain) (d : Decoration) : (p.decorated d).Plain := by
  cases h with
  | leaf hne hname => exact .leaf hne hname
  | form hps => exact .form hps

/-! ## Reading a picture -/

theorem name_head {name : String} (hne : name ≠ "") (hname : ∀ c ∈ name.toList, isPlain c = true)
    {c : Char} (hc : isPlain c = false) {rest : List Char} :
    (name.toList ++ rest).head? ≠ some c := by
  cases hcs : name.toList with
  | nil => exact absurd (String.toList_eq_nil_iff.mp hcs) hne
  | cons c' cs =>
      have hc' : isPlain c' = true := hname c' (by simp [hcs])
      rintro ⟨rfl⟩
      rw [hc] at hc'
      cases hc'

/-- A name and a bracket are neither a mark nor a value. -/
theorem Plain.opens {p : Picture} (h : p.Plain) (t : Nat) {rest : List Char} (hr : Ends rest) :
    Decoration.Opens (p.body t rest) := by
  cases h with
  | @form d ps _ =>
      constructor
      · rintro ⟨⟩
      · rintro ⟨⟩
      · rintro ⟨⟩
  | @leaf d name hne hname =>
      constructor
      case inline => exact name_head hne hname rfl
      case unmarked => exact name_head hne hname rfl
      case unvalued =>
        rw [body, List.dropWhile_append_of_pos hname]
        cases rest with
        | nil => simp
        | cons c rest =>
            rw [List.dropWhile_cons_of_neg (by simp [hr.halts c rfl])]
            rintro ⟨rfl⟩
            rcases hr ' ' rfl with h | h | h <;> cases h

/-- The text of a picture does not begin with the end of a line. -/
theorem Plain.render_head {p : Picture} (h : p.Plain) (t : Nat) {rest : List Char}
    (hr : Ends rest) : (p.render t rest).head? ≠ some '\n' := by
  rw [render_eq]
  match p.decoration with
  | ⟨false, none⟩ => exact (h.opens t hr).inline
  | ⟨false, some v⟩ => exact Decoration.value_head v _ rfl (by decide)
  | ⟨true, none⟩ => simp [Decoration.around]
  | ⟨true, some v⟩ => simp [Decoration.around]

theorem renderTail_ends (t t' : Nat) (ps : List Picture) (rest : List Char) :
    Ends (renderTail t ps (closing t' rest)) := by
  cases ps <;> rw [renderTail] <;> exact .line

theorem closing_inj {t : Nat} {rest rest' : List Char} (h : closing t rest = closing t rest') :
    rest = rest' := by
  simpa [closing, indented] using h

/-- The line of a closing bracket is not that of a child, which is indented by more. -/
theorem closing_ne_line {t : Nat} {rest rest' : List Char} :
    closing t rest ≠ '\n' :: indented (t + 1) rest' := by
  intro h
  have hblanks : List.replicate (2 * (t + 1)) ' ' = List.replicate (2 * t) ' ' ++ [' ', ' '] :=
    List.replicate_add (2 * t) 2 ' '
  simp [closing, indented, hblanks] at h

theorem eq_of_decorated {p q : Picture} (hd : p.decoration = q.decoration)
    (h : p.decorated .bare = q.decorated .bare) : p = q := by
  cases p with
  | leaf d x =>
      cases q with
      | leaf d' y =>
          cases hd
          cases h
          rfl
      | form => cases h
  | form d ps =>
      cases q with
      | leaf => cases h
      | form d' qs =>
          cases hd
          cases h
          rfl

/-- Pictures can be read in one way if they can be read so without the decorations at their
roots. -/
theorem render_inj_of_body {p q : Picture} {t : Nat} {rest rest' : List Char} (hp : p.Plain)
    (hq : q.Plain)
    (hbody : ∀ {r r'}, Ends r → Ends r' → p.body t r = q.body t r' →
      p.decorated .bare = q.decorated .bare ∧ r = r')
    (hr : Ends rest) (hr' : Ends rest') (h : p.render t rest = q.render t rest') :
    p = q ∧ rest = rest' := by
  rw [render_eq, render_eq] at h
  obtain ⟨hd, hsame, hrest⟩ :=
    Decoration.around_inj (fun r => hp.opens t) (fun r => hq.opens t) hbody hr hr' h
  exact ⟨eq_of_decorated hd hsame, hrest⟩

theorem render_cons_inj {p q : Picture} {ps qs : List Picture} {t : Nat} {rest rest' : List Char}
    (hp : p.Plain) (hq : q.Plain)
    (hbody : ∀ {r r'}, Ends r → Ends r' → p.body (t + 1) r = q.body (t + 1) r' →
      p.decorated .bare = q.decorated .bare ∧ r = r')
    (htail : renderTail (t + 1) ps (closing t rest) = renderTail (t + 1) qs (closing t rest') →
      ps = qs ∧ rest = rest')
    (h : p.render (t + 1) (renderTail (t + 1) ps (closing t rest)) =
      q.render (t + 1) (renderTail (t + 1) qs (closing t rest'))) :
    p :: ps = q :: qs ∧ rest = rest' := by
  obtain ⟨rfl, hlines⟩ := render_inj_of_body hp hq hbody (renderTail_ends (t + 1) t ps rest)
    (renderTail_ends (t + 1) t qs rest') h
  obtain ⟨rfl, hrest⟩ := htail hlines
  exact ⟨rfl, hrest⟩

mutual

/-- Below its decoration, a plain picture can be read in one way: a name ends where the rest
begins, and a form ends with its own last line. -/
theorem body_inj : ∀ (p q : Picture) {t : Nat} {rest rest' : List Char}, p.Plain → q.Plain →
    Ends rest → Ends rest' → p.body t rest = q.body t rest' →
    p.decorated .bare = q.decorated .bare ∧ rest = rest'
  | .leaf _ x, .leaf _ y, _, _, _, .leaf _ hx, .leaf _ hy, hr, hr', h => by
      obtain ⟨hxy, hrest⟩ := append_inj_of_halts hx hy hr.halts hr'.halts h
      exact ⟨by rw [decorated, String.toList_inj.mp hxy, decorated], hrest⟩
  | .form _ ps, .form _ qs, _, _, _, .form hps, .form hqs, _, _, h => by
      obtain ⟨rfl, hrest⟩ := renderAll_inj ps qs hps hqs (List.cons.inj h).2
      exact ⟨rfl, hrest⟩
  | .leaf _ _, .form _ _, _, _, _, .leaf hne hname, _, _, _, h =>
      absurd (congrArg List.head? h) (name_head hne hname rfl)
  | .form _ _, .leaf _ _, _, _, _, _, .leaf hne hname, _, _, h =>
      absurd (congrArg List.head? h.symm) (name_head hne hname rfl)

theorem renderAll_inj : ∀ (ps qs : List Picture) {t : Nat} {rest rest' : List Char},
    (∀ p ∈ ps, p.Plain) → (∀ q ∈ qs, q.Plain) →
    renderAll (t + 1) ps (closing t rest) = renderAll (t + 1) qs (closing t rest') →
    ps = qs ∧ rest = rest'
  | [], [], _, _, _, _, _, h => by
      rw [renderAll, renderAll] at h
      exact ⟨rfl, closing_inj h⟩
  | [], q :: qs, t, _, rest', _, hqs, h => by
      rw [renderAll, renderAll] at h
      have hhead := (hqs q (by simp)).render_head (t + 1) (renderTail_ends (t + 1) t qs rest')
      rw [← h] at hhead
      exact absurd rfl hhead
  | p :: ps, [], t, rest, _, hps, _, h => by
      rw [renderAll, renderAll] at h
      have hhead := (hps p (by simp)).render_head (t + 1) (renderTail_ends (t + 1) t ps rest)
      rw [h] at hhead
      exact absurd rfl hhead
  | p :: ps, q :: qs, _, _, _, hps, hqs, h => by
      rw [renderAll, renderAll] at h
      have hp := hps p (by simp)
      have hq := hqs q (by simp)
      exact render_cons_inj hp hq (body_inj p q hp hq) (renderTail_inj ps qs
        (fun p hp => hps p (by simp [hp])) (fun q hq => hqs q (by simp [hq]))) h

theorem renderTail_inj : ∀ (ps qs : List Picture) {t : Nat} {rest rest' : List Char},
    (∀ p ∈ ps, p.Plain) → (∀ q ∈ qs, q.Plain) →
    renderTail (t + 1) ps (closing t rest) = renderTail (t + 1) qs (closing t rest') →
    ps = qs ∧ rest = rest'
  | [], [], _, _, _, _, _, h => by
      rw [renderTail, renderTail] at h
      exact ⟨rfl, closing_inj h⟩
  | [], _ :: _, _, _, _, _, _, h => by
      rw [renderTail, renderTail] at h
      exact absurd h closing_ne_line
  | _ :: _, [], _, _, _, _, _, h => by
      rw [renderTail, renderTail] at h
      exact absurd h.symm closing_ne_line
  | p :: ps, q :: qs, _, _, _, hps, hqs, h => by
      rw [renderTail, renderTail] at h
      have hline := List.append_cancel_left (List.cons.inj h).2
      have hp := hps p (by simp)
      have hq := hqs q (by simp)
      exact render_cons_inj hp hq (body_inj p q hp hq) (renderTail_inj ps qs
        (fun p hp => hps p (by simp [hp])) (fun q hq => hqs q (by simp [hq]))) hline

end

/-- Two plain pictures with the same text are the same. -/
theorem render_inj {p q : Picture} (hp : p.Plain) (hq : q.Plain) {t : Nat}
    (h : p.render t [] = q.render t []) : p = q :=
  (render_inj_of_body hp hq (body_inj p q hp hq) .nil .nil h).1

end Picture

end Stepwise
