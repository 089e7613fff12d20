import Stepwise.Tree.Node

/-!
# Trees in memory

In memory a form has a *place*, and a child that is a form is known by its place.  So the same
form may stand under several others, and two trees may share some of their forms.

`Placed.same` compares two trees in memory as `Node.same` does, but it does not look into two
forms that are in the same place.  For that it has to rely on the memory: a place holds one form
(`Placed.KeptIn`).
-/

namespace Stepwise

/-- A tree in memory, with the place of every form. -/
inductive Placed (α : Type) where
  /-- A child that is not there. -/
  | missing
  /-- A leaf with its name. -/
  | terminal (name : String)
  /-- An inner node with its place and its children. -/
  | form (place : α) (children : List (Placed α))

namespace Placed

variable {α : Type}

mutual

/-- The tree itself, without its places. -/
def node : Placed α → Node
  | .missing => .missing
  | .terminal name => .terminal name
  | .form _ children => .form (nodes children)

/-- The trees of a list, without their places. -/
def nodes : List (Placed α) → List Node
  | [] => []
  | n :: ns => node n :: nodes ns

end

mutual

/-- Are two trees the same?  Two forms in the same place are, and others are compared child by
child if they have as many children. -/
def same [DecidableEq α] : Placed α → Placed α → Bool
  | .missing, .missing => true
  | .terminal a, .terminal b => a == b
  | .form p as, .form q bs => p = q || (as.length = bs.length && sameAll as bs)
  | _, _ => false

/-- Are two lists of trees the same, as far as both of them go? -/
def sameAll [DecidableEq α] : List (Placed α) → List (Placed α) → Bool
  | a :: as, b :: bs => same a b && sameAll as bs
  | _, _ => true

end

/-- Every form of the tree is the one that the memory holds in its place. -/
inductive KeptIn (memory : α → List (Placed α)) : Placed α → Prop where
  | missing : KeptIn memory .missing
  | terminal (name : String) : KeptIn memory (.terminal name)
  | form (place : α) : (∀ n ∈ memory place, KeptIn memory n) →
      KeptIn memory (.form place (memory place))

end Placed

end Stepwise
