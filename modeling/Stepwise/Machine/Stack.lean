/-!
# Stacks

A stack of pending work, the innermost entry first.  Reading or removing the
innermost entry of an empty stack gives nothing and changes nothing.
-/

namespace Stepwise

/-- A stack, the innermost entry first. -/
abbrev Stack (α : Type) := List α

namespace Stack

variable {α : Type}

/-- The stack without entries. -/
def empty : Stack α := []

/-- Put an entry on the inside. -/
def push (s : Stack α) (a : α) : Stack α := a :: s

/-- The innermost entry. -/
def top? (s : Stack α) : Option α := s.head?

/-- The innermost entry and the stack without it. -/
def pop (s : Stack α) : Option α × Stack α := (s.head?, s.tail)

/-- The entries, the outermost first. -/
def outermostFirst (s : Stack α) : List α := s.reverse

/-- What was pushed last is popped first. -/
theorem pop_push (s : Stack α) (a : α) : (s.push a).pop = (some a, s) := rfl

/-- A push adds an entry at the inner end. -/
theorem outermostFirst_push (s : Stack α) (a : α) :
    (s.push a).outermostFirst = s.outermostFirst ++ [a] := by
  simp [outermostFirst, push]

end Stack

end Stepwise
