import Stepwise.Proofs.Tree.Reading
import Stepwise.Tree.Digest

/-!
# Trees with holes cannot be measured

The text of a tree, its depth, its size and its digest are computed from the leaves up.  Whoever
computes them asks every child for its own, and a child that is missing has none.
`Node.gather` is that computation for any kind of value, and it stops at a hole.

It gives a value exactly if no node of the tree is missing (`Node.gather_eq`), and then the one
that is computed without regard to holes.  The four measures are cases of it.  Programs have no
holes (`Program.whole`).
-/

namespace Stepwise

namespace Node

variable {β : Type}

mutual

/-- Compute a value from the leaves up, `leaf` from the name of a terminal and `join` from the
values of all children of a form. -/
def gather (leaf : String → β) (join : List β → β) : Node → Option β
  | .missing => none
  | .terminal name => some (leaf name)
  | .form children => (gatherAll leaf join children).map join

/-- The values of all trees of a list. -/
def gatherAll (leaf : String → β) (join : List β → β) : List Node → Option (List β)
  | [] => some []
  | n :: ns =>
    match gather leaf join n with
    | none => none
    | some v => (gatherAll leaf join ns).map (v :: ·)

end

mutual

/-- What is computed from the leaves up is there if no node is missing. -/
theorem gather_eq {f : Node → β} {leaf : String → β} {join : List β → β}
    (hleaf : ∀ name, f (.terminal name) = leaf name)
    (hform : ∀ children, f (.form children) = join (children.map f)) : (n : Node) →
    n.gather leaf join = if n.hasMissing then none else some (f n)
  | .missing => rfl
  | .terminal name => by simp [gather, hasMissing, hleaf]
  | .form children => by
      rw [gather, gatherAll_eq hleaf hform children, hasMissing, hform]
      cases anyMissing children <;> rfl

theorem gatherAll_eq {f : Node → β} {leaf : String → β} {join : List β → β}
    (hleaf : ∀ name, f (.terminal name) = leaf name)
    (hform : ∀ children, f (.form children) = join (children.map f)) : (ns : List Node) →
    gatherAll leaf join ns = if anyMissing ns then none else some (ns.map f)
  | [] => rfl
  | n :: ns => by
      rw [gatherAll, gather_eq hleaf hform n, gatherAll_eq hleaf hform ns, anyMissing,
        List.map_cons]
      cases hasMissing n <;> cases anyMissing ns <;> rfl

end

/-! ## The four measures -/

/-- The depth of a tree without holes. -/
def depth? : Node → Option Nat := gather (fun _ => 1) fun depths => 1 + depths.foldr max 0

/-- The number of nodes of a tree without holes. -/
def nodeCount? : Node → Option Nat := gather (fun _ => 1) fun counts => 1 + counts.foldr (· + ·) 0

/-- The digest of a tree without holes. -/
def digest? : Node → Option Digest :=
  gather (fun name => (Digest.start.absorb 'T'.toUInt8).absorbAll name.toUTF8.data.toList)
    fun digests =>
      digests.foldl (fun h d => h.absorbAll d.bytes)
        ((Digest.start.absorb 'A'.toUInt8).absorb (UInt8.ofNat digests.length))

/-- Write the children of a form between brackets, given what writes each of them in front of a
rest. -/
def bracketed : List (List Char → List Char) → List Char → List Char
  | [], rest => '(' :: ')' :: rest
  | w :: ws, rest => '(' :: w (ws.foldr (fun write after => ' ' :: write after) (')' :: rest))

/-- The one-line text of a tree without holes. -/
def text? (n : Node) : Option String :=
  (n.gather (fun name rest => name.toList ++ rest) bracketed).map fun write =>
    String.ofList (write [])

theorem maxDepth_eq (ns : List Node) : maxDepth ns = (ns.map depth).foldr max 0 := by
  induction ns with
  | nil => rfl
  | cons n ns ih => rw [maxDepth, ih, List.map_cons, List.foldr_cons]

theorem nodeCountAll_eq (ns : List Node) : nodeCountAll ns = (ns.map nodeCount).foldr (· + ·) 0 := by
  induction ns with
  | nil => rfl
  | cons n ns ih => rw [nodeCountAll, ih, List.map_cons, List.foldr_cons]

theorem digestChildren_eq (h : Digest) (ns : List Node) :
    digestChildren h ns = (ns.map digest).foldl (fun h d => h.absorbAll d.bytes) h := by
  induction ns generalizing h with
  | nil => rfl
  | cons n ns ih => rw [digestChildren, ih, List.map_cons, List.foldl_cons]

theorem spellTail_eq (ns : List Node) (rest : List Char) :
    spellTail ns rest = (ns.map spell).foldr (fun write after => ' ' :: write after) rest := by
  induction ns with
  | nil => rfl
  | cons n ns ih => rw [spellTail, ih, List.map_cons, List.foldr_cons]

variable (n : Node)

theorem depth?_eq : n.depth? = if n.hasMissing then none else some n.depth :=
  gather_eq (f := depth) (fun _ => by rw [depth]) (fun ns => by rw [depth, maxDepth_eq]) n

theorem nodeCount?_eq : n.nodeCount? = if n.hasMissing then none else some n.nodeCount :=
  gather_eq (f := nodeCount) (fun _ => by rw [nodeCount])
    (fun ns => by rw [nodeCount, nodeCountAll_eq]) n

theorem digest?_eq : n.digest? = if n.hasMissing then none else some n.digest :=
  gather_eq (f := digest) (fun _ => by rw [digest])
    (fun ns => by rw [digest, digestChildren_eq, List.length_map]) n

theorem text?_eq : n.text? = if n.hasMissing then none else some n.text := by
  have hspell : n.gather (fun name rest => name.toList ++ rest) bracketed =
      if n.hasMissing then none else some n.spell := by
    refine gather_eq (fun name => ?_) (fun ns => ?_) n
    · funext rest
      rw [spell]
    · funext rest
      cases ns with
      | nil => rw [spell, List.map_nil, bracketed]
      | cons n ns => rw [spell, spellTail_eq, List.map_cons, bracketed]
  rw [text?, hspell]
  cases n.hasMissing <;> rfl

/-! ## Programs have no holes -/

theorem anyMissing_eq_false_iff {ns : List Node} :
    anyMissing ns = false ↔ ∀ n ∈ ns, n.hasMissing = false := by
  induction ns with
  | nil => simp [anyMissing]
  | cons n ns ih => simp [anyMissing, ih]

theorem Legible.whole : ∀ {n : Node}, n.Legible → n.hasMissing = false
  | _, .terminal _ _ => rfl
  | _, .form h => by
      rw [hasMissing, anyMissing_eq_false_iff]
      exact fun n hn => (h n hn).whole

end Node

theorem Program.whole {a : Form} (h : Program a) : (Node.form a).hasMissing = false :=
  h.legible.whole

end Stepwise
