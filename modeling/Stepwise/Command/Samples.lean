import Stepwise.Tree.Vocabulary

/-!
# Sample programs

Five programs that come with the command, in the order of their names.
-/

namespace Stepwise.Command

open Form (ifElse eq prog2 prog3)

/-- The terminal of the move to the left. -/
def left : Node := (Leaf.move .left).node

/-- The terminal of the move to the right. -/
def right : Node := (Leaf.move .right).node

/-- The terminal of the shot. -/
def shoot : Node := (Leaf.move .shoot).node

/-- The terminal of the horizontal distance. -/
def distX : Node := (Leaf.sense .distX).node

/-- The terminal of the vertical distance. -/
def distY : Node := (Leaf.sense .distY).node

/-- Go towards the alien one way or the other and shoot when it is right above. -/
def aim : Form :=
  ifElse distX (.form (ifElse (.form (eq distX distY)) left right)) shoot

/-- Go to the right and back, shooting whenever the alien is right above. -/
def hunter : Form :=
  ifElse distX (.form (prog2 right (.form (ifElse distX left shoot)))) shoot

/-- Only look. -/
def idle : Form := eq distX distY

/-- Go to and fro and shoot at random. -/
def patrol : Form :=
  prog2
    (.form (ifElse left shoot (.form (prog3 right right shoot))))
    (.form (ifElse (.form (eq distX shoot)) shoot right))

/-- Shoot between a move to the left and one to the right. -/
def sweep : Form := prog3 left shoot right

/-- All samples with their names. -/
def samples : List (String × Form) :=
  [("aim", aim), ("hunter", hunter), ("idle", idle), ("patrol", patrol), ("sweep", sweep)]

end Stepwise.Command
